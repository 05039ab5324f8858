import Quotation.Proofs.Quote.Downloads
import Quotation.Proofs.Store.Shelf

/-!
# The content type of a quoted sticker

A quoted sticker always has a content type: that of the record of its picture, whatever has become
of the picture, or else that of the sticker that was installed last in its place, or else the one
that is taken for granted.

* `StickerRef.HasPlace`, `Store.InstalledLast`: what a run has installed in a place last;
* `Store.sticker?_run_eq_some_iff`, `Store.sticker?_run_eq_none_iff`: that is what is found there;
* `Holdings.contentType_quotedSticker`: the three sources, one after the other;
* `Store.quoted_sticker_has_contentType`.
-/

namespace Quotation

/-- Whether a sticker has the pack and the number of another. The keys of the packs may differ. -/
def StickerRef.HasPlace (info other : StickerRef) : Prop :=
  info.packId = other.packId ∧ info.number = other.number

instance (info other : StickerRef) : Decidable (info.HasPlace other) :=
  inferInstanceAs (Decidable (_ ∧ _))

namespace Store

/-- Whether a run installs a sticker in a place, and none in that place after it. -/
def InstalledLast (ops : List Operation) (place : StickerRef) (s : InstalledSticker) : Prop :=
  ∃ before after, ops = before ++ .installSticker s :: after ∧ s.info.HasPlace place ∧
    ∀ t, .installSticker t ∈ after → ¬t.info.HasPlace place

namespace Shelf

variable {v : Shelf} {place : StickerRef}

/-- What stands in a place stays there until a sticker is installed in it. -/
theorem run_eq_of_forall_not {ops : List Operation}
    (h : ∀ t, .installSticker t ∈ ops → ¬t.info.HasPlace place) :
    v.run ops place.packId place.number = v place.packId place.number := by
  induction ops generalizing v with
  | nil => rfl
  | cons op ops ih =>
    have hstep : v.after op place.packId place.number = v place.packId place.number := by
      cases op with
      | installSticker t =>
        have ht := h t List.mem_cons_self
        rw [after, put, if_neg]
        rwa [Bool.and_eq_true, beq_iff_eq, beq_iff_eq]
      | _ => rfl
    rw [run, List.foldl_cons]
    exact (ih fun t ht => h t (List.mem_cons_of_mem op ht)).trans hstep

theorem run_append (v : Shelf) (ops ops' : List Operation) :
    v.run (ops ++ ops') = (v.run ops).run ops' :=
  List.foldl_append

theorem run_of_installedLast {ops : List Operation} {s : InstalledSticker}
    (h : InstalledLast ops place s) : v.run ops place.packId place.number = some s := by
  obtain ⟨before, after, rfl, hplace, hafter⟩ := h
  have hput : ((v.run before).put s) place.packId place.number = some s := by
    rw [put, if_pos]
    rwa [Bool.and_eq_true, beq_iff_eq, beq_iff_eq]
  rw [run_append]
  exact (run_eq_of_forall_not hafter).trans hput

end Shelf

/-- Either no sticker is installed in a place, or one of them is the last. -/
theorem exists_installedLast (ops : List Operation) (place : StickerRef) :
    (∀ t, .installSticker t ∈ ops → ¬t.info.HasPlace place) ∨
      ∃ s, InstalledLast ops place s := by
  induction ops with
  | nil => exact .inl fun t ht => absurd ht List.not_mem_nil
  | cons op ops ih =>
    rcases ih with hnone | ⟨s, before, after, rfl, hs⟩
    · by_cases hop : ∃ s, op = .installSticker s ∧ s.info.HasPlace place
      · obtain ⟨s, rfl, hs⟩ := hop
        exact .inr ⟨s, [], ops, rfl, hs, hnone⟩
      · refine .inl fun t ht hplace => ?_
        rcases List.mem_cons.mp ht with rfl | ht
        · exact hop ⟨t, rfl, hplace⟩
        · exact hnone t ht hplace
    · exact .inr ⟨s, op :: before, after, rfl, hs⟩

/-- A sticker is found exactly if it was installed last in the place that is asked for. -/
theorem sticker?_run_eq_some_iff {ops : List Operation} {place : StickerRef}
    {s : InstalledSticker} :
    (Database.fresh.run ops).sticker? place = .ok (some s) ↔ InstalledLast ops place s := by
  rw [sticker?_run, Except.ok.injEq]
  refine ⟨fun hs => ?_, Shelf.run_of_installedLast⟩
  rcases exists_installedLast ops place with hnone | ⟨t, ht⟩
  · rw [Shelf.run_eq_of_forall_not hnone] at hs
    cases hs
  · rw [Shelf.run_of_installedLast ht] at hs
    rwa [← Option.some.inj hs]

/-- None is found exactly if none was ever installed there. -/
theorem sticker?_run_eq_none_iff {ops : List Operation} {place : StickerRef} :
    (Database.fresh.run ops).sticker? place = .ok none ↔
      ∀ t, .installSticker t ∈ ops → ¬t.info.HasPlace place := by
  rw [sticker?_run, Except.ok.injEq]
  refine ⟨fun hnone => ?_, Shelf.run_eq_of_forall_not⟩
  rcases exists_installedLast ops place with hnever | ⟨s, hs⟩
  · exact hnever
  · rw [Shelf.run_of_installedLast hs] at hnone
    cases hnone

end Store

/-! ### The quote -/

/-- The content type of a quoted sticker is that of the record of its picture, or that of the
installed sticker, or the one of pictures of stickers in general. -/
theorem Holdings.contentType_quotedSticker (held : Holdings) (s : Sticker) :
    (held.quotedSticker s).contentType =
      some (((held.attachment? s.attachment).map (·.contentType)).getD
        ((held.sticker? s.info).elim "image/webp" (·.contentType))) := by
  rw [quotedSticker, contentType_quoted]

/-- An item that is found to be a sticker is quoted as one. -/
theorem Snapshot.ofItem_of_source_sticker {look : Lookup} {held : Holdings}
    (hlook : look.Answers held) {i : Item} {info : StickerRef} {picture : AttachmentId}
    (h : Source.ofItem look i = .ok (.sticker info (some picture))) :
    ofItem look i = .ok ⟨i.timestamp, i.author, false,
      .sticker info (held.quotedSticker ⟨info, picture, none⟩)⟩ :=
  ofItem_eq_ok_iff.mpr ⟨_, _, h, contentOf_sticker hlook ⟨info, picture, none⟩, rfl⟩

namespace Store

/-- The content type that the quote of a sticker with a picture has after a run. -/
inductive StickerType (ops : List Operation) (info : StickerRef) (picture : AttachmentId) :
    String → Prop
  /-- There is a record of the picture. -/
  | recorded {a : Attachment} (h : (Database.fresh.run ops).attachment? picture = .ok (some a)) :
      StickerType ops info picture a.contentType
  /-- There is none, but a sticker has been installed in the place. -/
  | installed {s : InstalledSticker}
      (h : (Database.fresh.run ops).attachment? picture = .ok none)
      (hs : InstalledLast ops info s) : StickerType ops info picture s.contentType
  /-- There is neither a record nor a sticker. -/
  | assumed (h : (Database.fresh.run ops).attachment? picture = .ok none)
      (hnone : ∀ t, .installSticker t ∈ ops → ¬t.info.HasPlace info) :
      StickerType ops info picture "image/webp"

/-- After any run, the sticker that is found in a place is the one that was installed there last, as
it was installed, and none is found exactly if there never was one. The quote of an item that is
found to be a sticker is made, and has the content type of the record of the picture, or of the
sticker that was installed last, or the one of stickers in general. -/
theorem quoted_sticker_has_contentType (ops : List Operation) :
    let db := Database.fresh.run ops
    (∀ info s, db.sticker? info = .ok (some s) ↔ InstalledLast ops info s) ∧
    (∀ info, db.sticker? info = .ok none ↔
      ∀ t, .installSticker t ∈ ops → ¬t.info.HasPlace info) ∧
    ∀ i info picture, Source.ofItem db.lookup i = .ok (.sticker info (some picture)) →
      ∃ q type, Snapshot.ofItem db.lookup i = .ok q ∧ q.sticker? = some info ∧
        q.contentType = some type ∧ StickerType ops info picture type := by
  intro db
  refine ⟨fun info s => sticker?_run_eq_some_iff, fun info => sticker?_run_eq_none_iff,
    fun i info picture hsource => ?_⟩
  have hanswers : db.lookup.Answers (Contents.run {} ops).held := by
    simp only [db, Contents.run_fresh]
    exact Contents.answers_held _
  have hattachment : db.attachment? picture =
      .ok ((Contents.run {} ops).held.attachment? picture) := hanswers.attachment picture
  have hsticker : db.sticker? info = .ok ((Contents.run {} ops).held.sticker? info) :=
    hanswers.sticker info
  refine ⟨_, _, Snapshot.ofItem_of_source_sticker hanswers hsource, rfl,
    Holdings.contentType_quotedSticker _ _, ?_⟩
  cases hrecord : (Contents.run {} ops).held.attachment? picture with
  | some a => exact .recorded (hattachment.trans (congrArg _ hrecord))
  | none =>
    have hnone := hattachment.trans (congrArg _ hrecord)
    cases hinstalled : (Contents.run {} ops).held.sticker? info with
    | some s =>
      exact .installed hnone (sticker?_run_eq_some_iff.mp
        (hsticker.trans (congrArg _ hinstalled)))
    | none =>
      exact .assumed hnone (sticker?_run_eq_none_iff.mp (hsticker.trans (congrArg _ hinstalled)))

/-- After two stickers are installed in one place under different keys, and one in another place
between them, a quote has the type of the second, unless there is a record of the picture, if only
of a download that has failed. -/
theorem quoted_sticker_has_contentType_replaced :
    let info : StickerRef := ⟨.replicate 16 1, .replicate 32 2, 7⟩
    let first : InstalledSticker := ⟨info, "image/png", none, "7.png"⟩
    let second : InstalledSticker :=
      ⟨{ info with packKey := .replicate 32 3 }, "image/apng", some "\u2603", "7.apng"⟩
    let other : InstalledSticker := ⟨{ info with number := 4294967295 }, "image/gif", none, "8.gif"⟩
    let pointer : AttachmentPointer :=
      ⟨⟨⟨.replicate 16 4⟩⟩, "image/jpeg", none, 4096, "key", .failed⟩
    let now : Instant := ⟨1483228799, 1500000000, by decide⟩
    let ops : List Operation := [.installSticker first, .installSticker other,
      .installSticker second, .insertAttachment (.pointer pointer) now, .installSticker other]
    let unknown : AttachmentId := ⟨⟨.replicate 16 5⟩⟩
    let i : Item :=
      { timestamp := 1000, author := ⟨⟨.replicate 16 6⟩, none⟩
        sticker := some ⟨info, unknown, none⟩ }
    let j : Item := { i with sticker := some ⟨info, pointer.id, none⟩ }
    let db := Database.fresh.run ops
    db.sticker? info = .ok (some second) ∧
    (∃ q, Snapshot.ofItem db.lookup i = .ok q ∧ q.contentType = some "image/apng") ∧
    ∃ q, Snapshot.ofItem db.lookup j = .ok q ∧ q.contentType = some "image/jpeg" := by
  intro info first second other pointer now ops unknown i j db
  obtain ⟨hsticker, -, hquote⟩ := quoted_sticker_has_contentType ops
  have hlast : InstalledLast ops info second := by
    refine ⟨[.installSticker first, .installSticker other], _, rfl, ⟨rfl, rfl⟩, fun t ht => ?_⟩
    obtain rfl : t = other := by simpa using ht
    decide
  refine ⟨(hsticker info second).mpr hlast, ?_, ?_⟩
  · obtain ⟨q, type, hq, -, htype, horigin⟩ := hquote i info unknown rfl
    have hnone : db.attachment? unknown = .ok none := (attachment?_run ops unknown).trans (by rfl)
    refine ⟨q, hq, htype.trans (congrArg some ?_)⟩
    cases horigin with
    | recorded h => cases hnone.symm.trans h
    | installed h hs =>
      have hfound := ((hsticker info _).mpr hs).symm.trans ((hsticker info second).mpr hlast)
      rw [Option.some.inj (Except.ok.inj hfound)]
    | assumed h hnever => exact absurd ⟨rfl, rfl⟩ (hnever second (by simp [ops]))
  · obtain ⟨q, type, hq, -, htype, horigin⟩ := hquote j info pointer.id rfl
    have hsome : db.attachment? pointer.id = .ok (some (.pointer pointer)) :=
      (attachment?_run ops pointer.id).trans (by rfl)
    refine ⟨q, hq, htype.trans (congrArg some ?_)⟩
    cases horigin with
    | recorded h =>
      rw [Option.some.inj (Except.ok.inj (h.symm.trans hsome))]
      rfl
    | installed h hs => cases h.symm.trans hsome
    | assumed h hnever => cases h.symm.trans hsome

end Store

end Quotation
