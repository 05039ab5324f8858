import Quotation.Proofs.Quote.Tidy
import Quotation.Proofs.Quote.Withheld

/-!
# The kind of a quote

Which of the six kinds of quotes is made of an item, and what it shows, in terms of the item and of
what is held of attachments and stickers. All other items have nothing to show.

* `Lookup.FirstMedia`: the attachment that a quote shows, if it shows one, as lookups tell;
* `Holdings`, `Lookup.Answers`: what is held, and lookups that tell it;
* `Item.Shows`: one rule for each kind of quote; `Item.ShowsNothing`: when there is no quote;
* `shows_or_showsNothing`: one of them applies;
* `ofItem_eq_ok_iff_shows`.
-/

namespace Quotation

namespace Lookup

variable (look : Lookup)

/-- Whether an attachment is found to be the rest of a long text. -/
def IsRestOfText (id : AttachmentId) : Prop :=
  ∃ a, look.attachment id = .ok (some a) ∧ a.contentType = "text/x-signal-plain"

/-- Whether an attachment is the first of some that is not found to be the rest of a long text. -/
def FirstMedia (ids : List AttachmentId) (id : AttachmentId) : Prop :=
  ∃ before after, ids = before ++ id :: after ∧ (∀ j ∈ before, look.IsRestOfText j) ∧
    ∃ o, look.attachment id = .ok o ∧ ∀ a ∈ o, a.contentType ≠ "text/x-signal-plain"

end Lookup

/-- What is held of attachments and of installed stickers. -/
structure Holdings where
  attachment? : AttachmentId → Option Attachment
  sticker? : StickerRef → Option InstalledSticker

/-- Lookups of attachments and stickers that succeed and tell what is held. -/
structure Lookup.Answers (look : Lookup) (held : Holdings) : Prop where
  attachment : ∀ id, look.attachment id = .ok (held.attachment? id)
  sticker : ∀ info, look.sticker info = .ok (held.sticker? info)

namespace Holdings

variable (held : Holdings)

/-- Whether an attachment is known to be the rest of a long text. -/
def IsRestOfText (id : AttachmentId) : Prop :=
  ∃ a, held.attachment? id = some a ∧ a.contentType = "text/x-signal-plain"

/-- Whether an attachment is the first of some that is not known to be the rest of a long text. -/
def FirstMedia (ids : List AttachmentId) (id : AttachmentId) : Prop :=
  ∃ before after, ids = before ++ id :: after ∧ (∀ j ∈ before, held.IsRestOfText j) ∧
    ¬held.IsRestOfText id

/-- An attachment as it is quoted: described as far as there is a record of it, with the stream if
its bytes are here, and with the pointer if fetching them has failed. -/
def quoted (id : AttachmentId) : QuotedAttachment :=
  match held.attachment? id with
  | some (.stream s) => ⟨some s.contentType, s.sourceFilename, .stream s⟩
  | some (.pointer p) =>
    ⟨some p.contentType, p.sourceFilename,
      if p.state = .failed then .failedThumbnail p else .unavailable⟩
  | none => ⟨none, none, .unavailable⟩

/-- The picture of a sticker as it is quoted. If there is no record of it, it has the content type
of the installed sticker, and that of pictures of stickers in general if none is installed. -/
def quotedSticker (s : Sticker) : QuotedAttachment :=
  let a := held.quoted s.attachment
  let installed := (held.sticker? s.info).elim "image/webp" (·.contentType)
  { a with contentType := some (a.contentType.getD installed) }

end Holdings

namespace Item

variable (i : Item)

/-- An item whose content may be seen. -/
structure Visible : Prop where
  notDeleted : i.wasRemotelyDeleted = false
  notExpired : ¬(i.isViewOnce = true ∧ i.isViewOnceComplete = true)

/-- An item whose content may be seen and is neither a sticker nor a contact. -/
structure Plain : Prop extends i.Visible where
  noSticker : i.sticker = none
  noContact : i.contact = none

/-- The ranges of the text; an empty list of them counts as none. -/
def shownRanges : Option TextRanges :=
  match i.ranges with
  | some ⟨[]⟩ => none
  | ranges => ranges

/-- What the quote of an item shows, by one rule for each kind of quote, and for an attachment by
two, with a caption and without. -/
inductive Shows (held : Holdings) : Content → Prop
  | deleted (h : i.wasRemotelyDeleted = true) : Shows held .remotelyDeleted
  | expired (h : i.wasRemotelyDeleted = false) (honce : i.isViewOnce = true)
      (hviewed : i.isViewOnceComplete = true) : Shows held .viewOnceExpired
  | sticker {s : Sticker} (h : i.Visible) (hs : i.sticker = some s) :
      Shows held (.sticker s.info (held.quotedSticker s))
  | contact {c : ContactCard} (h : i.Visible) (hs : i.sticker = none) (hc : i.contact = some c) :
      Shows held (.contactShare (Text.trim c.displayName))
  | captioned {id : AttachmentId} {s : String} (h : i.Plain)
      (hfirst : held.FirstMedia i.attachments id) (hs : i.body = some s)
      (hnonblank : ¬Text.IsBlankText s) :
      Shows held (.attachment (some s) i.shownRanges (held.quoted id))
  | uncaptioned {id : AttachmentId} (h : i.Plain) (hfirst : held.FirstMedia i.attachments id)
      (hblank : ∀ s ∈ i.body, Text.IsBlankText s) :
      Shows held (.attachment none none (held.quoted id))
  | text {s : String} (h : i.Plain) (hrest : ∀ id ∈ i.attachments, held.IsRestOfText id)
      (hs : i.body = some s) (hnonblank : ¬Text.IsBlankText s) :
      Shows held (.text s i.shownRanges)

/-- An item that has nothing to show and is not meant to be so: all that it may have is the rest of
a long text whose beginning is blank or missing. -/
structure ShowsNothing (held : Holdings) : Prop extends i.Plain where
  rest : ∀ id ∈ i.attachments, held.IsRestOfText id
  blank : ∀ s ∈ i.body, Text.IsBlankText s

end Item

/-! ### One of the rules applies -/

theorem Holdings.firstMedia_or_all (held : Holdings) (ids : List AttachmentId) :
    (∃ id, held.FirstMedia ids id) ∨ ∀ id ∈ ids, held.IsRestOfText id := by
  induction ids with
  | nil => exact .inr (by simp)
  | cons j ids ih =>
    by_cases hj : held.IsRestOfText j
    · rcases ih with ⟨id, before, after, rfl, hbefore, hid⟩ | hall
      · refine .inl ⟨id, j :: before, after, rfl, ?_, hid⟩
        exact List.forall_mem_cons.mpr ⟨hj, hbefore⟩
      · exact .inr (List.forall_mem_cons.mpr ⟨hj, hall⟩)
    · exact .inl ⟨j, [], ids, rfl, by simp, hj⟩

theorem Text.nonBlank_or_blank (body : Option String) :
    (∃ s, body = some s ∧ ¬IsBlankText s) ∨ ∀ s ∈ body, IsBlankText s := by
  cases body with
  | none => exact .inr (by simp)
  | some s =>
    by_cases hs : IsBlankText s
    · exact .inr (by simpa using hs)
    · exact .inl ⟨s, rfl, hs⟩

namespace Item

/-- Of each item something is shown, unless it has nothing to show. -/
theorem shows_or_showsNothing (i : Item) (held : Holdings) :
    (∃ c, i.Shows held c) ∨ i.ShowsNothing held := by
  by_cases hdeleted : i.wasRemotelyDeleted = true
  · exact .inl ⟨_, .deleted hdeleted⟩
  rw [Bool.not_eq_true] at hdeleted
  by_cases hexpired : i.isViewOnce = true ∧ i.isViewOnceComplete = true
  · exact .inl ⟨_, .expired hdeleted hexpired.1 hexpired.2⟩
  have hvisible : i.Visible := ⟨hdeleted, hexpired⟩
  cases hsticker : i.sticker with
  | some s => exact .inl ⟨_, .sticker hvisible hsticker⟩
  | none =>
    cases hcontact : i.contact with
    | some c => exact .inl ⟨_, .contact hvisible hsticker hcontact⟩
    | none =>
      have hplain : i.Plain := ⟨hvisible, hsticker, hcontact⟩
      rcases held.firstMedia_or_all i.attachments with ⟨id, hfirst⟩ | hrest
      · rcases Text.nonBlank_or_blank i.body with ⟨s, hs, hnonblank⟩ | hblank
        · exact .inl ⟨_, .captioned hplain hfirst hs hnonblank⟩
        · exact .inl ⟨_, .uncaptioned hplain hfirst hblank⟩
      · rcases Text.nonBlank_or_blank i.body with ⟨s, hs, hnonblank⟩ | hblank
        · exact .inl ⟨_, .text hplain hrest hs hnonblank⟩
        · exact .inr ⟨hplain, hrest, hblank⟩

end Item

/-! ### What is decided for an item -/

namespace Source

theorem nonBlank?_of_nonBlank {s : String} (h : ¬Text.IsBlankText s) :
    nonBlank? (some s) = some s := by
  rw [nonBlank?, Option.filter_some, if_pos]
  simpa using h

theorem nonBlank?_of_blank {body : Option String} (h : ∀ s ∈ body, Text.IsBlankText s) :
    nonBlank? body = none := by
  rw [nonBlank?, Option.filter_eq_none_iff]
  intro s hs
  simpa using h s hs

theorem someRanges?_eq_shownRanges (i : Item) : someRanges? i.ranges = i.shownRanges := by
  rw [someRanges?, Item.shownRanges]
  rcases i.ranges with _ | ⟨_ | ⟨r, rs⟩⟩ <;> rfl

section Decision

variable {look : Lookup} {held : Holdings} {i : Item}

theorem isExpired_of_visible (h : i.Visible) : i.isExpired = false := by
  rw [Item.isExpired, ← Bool.not_eq_true, Bool.and_eq_true]
  exact h.notExpired

theorem ofItem_of_sticker (h : i.Visible) {s : Sticker} (hs : i.sticker = some s) :
    ofItem look i = .ok (.sticker s.info (some s.attachment)) := by
  rw [ofItem, h.notDeleted, isExpired_of_visible h, hs]
  rfl

theorem ofItem_of_contact (h : i.Visible) (hs : i.sticker = none) {c : ContactCard}
    (hc : i.contact = some c) : ofItem look i = .ok (.contactShare (Text.trim c.displayName)) := by
  rw [ofItem, h.notDeleted, isExpired_of_visible h, hs, hc]
  rfl

theorem primaryAttachment_append {before : List AttachmentId}
    (hbefore : ∀ j ∈ before, look.IsRestOfText j) (ids : List AttachmentId) :
    primaryAttachment look (before ++ ids) = primaryAttachment look ids := by
  induction before with
  | nil => rfl
  | cons j before ih =>
    rw [List.forall_mem_cons] at hbefore
    obtain ⟨⟨a, ha, htype⟩, hbefore⟩ := hbefore
    rw [List.cons_append, primaryAttachment, ha, ok_bind]
    exact (if_pos htype).trans (ih hbefore)

theorem primaryAttachment_of_firstMedia {ids : List AttachmentId} {id : AttachmentId}
    (h : look.FirstMedia ids id) : primaryAttachment look ids = .ok (some id) := by
  obtain ⟨before, after, rfl, hbefore, o, ho, hmedia⟩ := h
  rw [primaryAttachment_append hbefore, primaryAttachment, ho, ok_bind]
  cases o with
  | none => rfl
  | some a => exact if_neg (hmedia a rfl)

theorem firstMedia_of_primaryAttachment {ids : List AttachmentId} {id : AttachmentId}
    (h : primaryAttachment look ids = .ok (some id)) :
    look.FirstMedia ids id := by
  induction ids with
  | nil => cases h
  | cons j ids ih =>
    rw [primaryAttachment] at h
    obtain ⟨o, ho, h⟩ := bind_eq_ok_iff.mp h
    cases o with
    | none =>
      cases h
      exact ⟨[], ids, rfl, by simp, none, ho, by simp⟩
    | some a =>
      dsimp only at h
      by_cases htype : a.contentType = Attachment.oversizeText
      · rw [if_pos htype] at h
        obtain ⟨before, after, rfl, hbefore, hid⟩ := ih h
        exact ⟨j :: before, after, rfl, List.forall_mem_cons.mpr ⟨⟨a, ho, htype⟩, hbefore⟩, hid⟩
      · rw [if_neg htype] at h
        cases h
        refine ⟨[], ids, rfl, by simp, some a, ho, fun b hb => ?_⟩
        cases hb
        exact htype

theorem isRestOfText_of_answers (h : look.Answers held) {id : AttachmentId}
    (hid : held.IsRestOfText id) : look.IsRestOfText id := by
  obtain ⟨a, ha, htype⟩ := hid
  exact ⟨a, by rw [h.attachment, ha], htype⟩

theorem primaryAttachment_of_first (h : look.Answers held) {ids : List AttachmentId}
    {id : AttachmentId} (hfirst : held.FirstMedia ids id) :
    primaryAttachment look ids = .ok (some id) := by
  obtain ⟨before, after, hids, hbefore, hid⟩ := hfirst
  refine primaryAttachment_of_firstMedia ⟨before, after, hids,
    fun j hj => isRestOfText_of_answers h (hbefore j hj), _, h.attachment id, ?_⟩
  exact fun a ha htype => hid ⟨a, ha, htype⟩

theorem primaryAttachment_of_rest (h : look.Answers held) {ids : List AttachmentId}
    (hrest : ∀ id ∈ ids, held.IsRestOfText id) : primaryAttachment look ids = .ok none := by
  have hnil := primaryAttachment_append
    (fun id hid => isRestOfText_of_answers h (hrest id hid)) []
  rwa [List.append_nil] at hnil

theorem ofItem_of_media (h : look.Answers held) (hplain : i.Plain) {id : AttachmentId}
    (hfirst : held.FirstMedia i.attachments id) :
    ofItem look i = .ok (captioned (some id) i.body i.ranges none none) := by
  rw [ofItem, hplain.notDeleted, isExpired_of_visible hplain.toVisible, hplain.noSticker,
    hplain.noContact, primaryAttachment_of_first h hfirst]
  rfl

theorem ofItem_of_rest (h : look.Answers held) (hplain : i.Plain)
    (hrest : ∀ id ∈ i.attachments, held.IsRestOfText id) :
    ofItem look i = ofText i.body i.ranges := by
  rw [ofItem, hplain.notDeleted, isExpired_of_visible hplain.toVisible, hplain.noSticker,
    hplain.noContact, primaryAttachment_of_rest h hrest]
  rfl

theorem captioned_of_nonBlank {s : String} (hs : i.body = some s) (hnonblank : ¬Text.IsBlankText s)
    (id : Option AttachmentId) :
    captioned id i.body i.ranges none none =
      .attachmentWithCaption id (some s) i.shownRanges none none := by
  rw [captioned, hs, nonBlank?_of_nonBlank hnonblank, someRanges?_eq_shownRanges]

theorem captioned_of_blank (hblank : ∀ s ∈ i.body, Text.IsBlankText s) (id : Option AttachmentId) :
    captioned id i.body i.ranges none none = .attachmentWithCaption id none none none none := by
  rw [captioned, nonBlank?_of_blank hblank]

theorem ofText_of_nonBlank {s : String} (hs : i.body = some s) (hnonblank : ¬Text.IsBlankText s) :
    ofText i.body i.ranges = .ok (.plainText s i.shownRanges) := by
  rw [ofText, hs, nonBlank?_of_nonBlank hnonblank, someRanges?_eq_shownRanges]

theorem ofText_of_blank (hblank : ∀ s ∈ i.body, Text.IsBlankText s) :
    ofText i.body i.ranges = .error .emptySource := by
  rw [ofText, nonBlank?_of_blank hblank]

end Decision

end Source

/-! ### What is frozen -/

section Frozen

variable {look : Lookup} {held : Holdings}

theorem Resolved.ofId_of_answers (h : look.Answers held) (id : AttachmentId) :
    ofId look id = .ok (ofRecord? (held.attachment? id)) := by
  rw [ofId, h.attachment]
  rfl

theorem QuotedAttachment.ofResolved_ofRecord? (held : Holdings) (id : AttachmentId) :
    ofResolved (.ofRecord? (held.attachment? id)) none none = held.quoted id := by
  rw [Holdings.quoted]
  rcases held.attachment? id with _ | s | p
  · rfl
  · rw [Resolved.ofRecord?, ofResolved]
    simp [Resolved.contentType, Resolved.sourceFilename]
  · by_cases hstate : p.state = .failed
    · simp [Resolved.ofRecord?, ofResolved, hstate, Resolved.contentType, Resolved.sourceFilename]
    · simp [Resolved.ofRecord?, ofResolved, hstate, Resolved.contentType, Resolved.sourceFilename]

namespace Snapshot

theorem stickerAttachment_of_answers (h : look.Answers held) (s : Sticker) :
    stickerAttachment look s.info (.ofRecord? (held.attachment? s.attachment)) =
      .ok (held.quotedSticker s) := by
  rw [stickerAttachment, QuotedAttachment.ofResolved_ofRecord?, Holdings.quotedSticker]
  cases htype : (held.quoted s.attachment).contentType with
  | some found =>
    simp only [Option.getD_some]
    rw [← htype]
  | none =>
    simp only [h.sticker, mapError_ok, Except.map]
    cases held.sticker? s.info <;> rfl

theorem contentOf_sticker (h : look.Answers held) (s : Sticker) :
    contentOf look (.sticker s.info (some s.attachment)) =
      .ok (.sticker s.info (held.quotedSticker s)) := by
  rw [contentOf, Resolved.ofId?, Resolved.ofId_of_answers h, Except.bind,
    stickerAttachment_of_answers h]
  rfl

theorem contentOf_attachment (h : look.Answers held) (id : AttachmentId) (caption : Option String)
    (ranges : Option TextRanges) :
    contentOf look (.attachmentWithCaption (some id) caption ranges none none) =
      .ok (.attachment caption ranges (held.quoted id)) := by
  rw [contentOf, Resolved.ofId?, Resolved.ofId_of_answers h, Except.map,
    QuotedAttachment.ofResolved_ofRecord?]

theorem contentOf_text {s : String} (hnonblank : ¬Text.IsBlankText s) (ranges : Option TextRanges) :
    contentOf look (.plainText s ranges) = .ok (.text s ranges) :=
  if_neg hnonblank

/-- What a rule says is shown is decided and frozen. -/
theorem exists_source_of_shows (h : look.Answers held) {i : Item} {c : Content}
    (hc : i.Shows held c) :
    ∃ source, Source.ofItem look i = .ok source ∧ contentOf look source = .ok c := by
  cases hc with
  | deleted hdeleted => exact ⟨_, Source.ofItem_of_deleted look hdeleted, rfl⟩
  | expired hkept honce hviewed =>
    have hexpired : i.isExpired = true := by
      rw [Item.isExpired, honce, hviewed]
      rfl
    exact ⟨_, Source.ofItem_of_expired look hkept hexpired, rfl⟩
  | sticker hvisible hs => exact ⟨_, Source.ofItem_of_sticker hvisible hs, contentOf_sticker h _⟩
  | contact hvisible hs hc => exact ⟨_, Source.ofItem_of_contact hvisible hs hc, rfl⟩
  | captioned hplain hfirst hs hnonblank =>
    refine ⟨_, Source.ofItem_of_media h hplain hfirst, ?_⟩
    rw [Source.captioned_of_nonBlank hs hnonblank, contentOf_attachment h]
  | uncaptioned hplain hfirst hblank =>
    refine ⟨_, Source.ofItem_of_media h hplain hfirst, ?_⟩
    rw [Source.captioned_of_blank hblank, contentOf_attachment h]
  | text hplain hrest hs hnonblank =>
    refine ⟨_, ?_, contentOf_text hnonblank i.shownRanges⟩
    rw [Source.ofItem_of_rest h hplain hrest, Source.ofText_of_nonBlank hs hnonblank]

theorem ofItem_of_shows (h : look.Answers held) {i : Item} {c : Content} (hc : i.Shows held c) :
    ofItem look i = .ok ⟨i.timestamp, i.author, false, c⟩ := by
  obtain ⟨source, hsource, hcontent⟩ := exists_source_of_shows h hc
  exact ofItem_eq_ok_iff.mpr ⟨source, c, hsource, hcontent, rfl⟩

theorem ofItem_of_showsNothing (h : look.Answers held) {i : Item} (hi : i.ShowsNothing held) :
    ofItem look i = .error .emptySource := by
  rw [ofItem, Source.ofItem_of_rest h hi.toPlain hi.rest, Source.ofText_of_blank hi.blank]
  rfl

theorem exists_shows_of_ofItem (h : look.Answers held) {i : Item} {s : Snapshot}
    (hs : ofItem look i = .ok s) :
    ∃ c, i.Shows held c ∧ s = ⟨i.timestamp, i.author, false, c⟩ := by
  rcases i.shows_or_showsNothing held with ⟨c, hc⟩ | hnothing
  · rw [ofItem_of_shows h hc] at hs
    exact ⟨c, hc, (Except.ok.inj hs).symm⟩
  · rw [ofItem_of_showsNothing h hnothing] at hs
    cases hs

theorem showsNothing_of_ofItem (h : look.Answers held) {i : Item} {e : QuoteError}
    (he : ofItem look i = .error e) : e = .emptySource ∧ i.ShowsNothing held := by
  rcases i.shows_or_showsNothing held with ⟨c, hc⟩ | hnothing
  · rw [ofItem_of_shows h hc] at he
    cases he
  · rw [ofItem_of_showsNothing h hnothing] at he
    exact ⟨(Except.error.inj he).symm, hnothing⟩

theorem not_shows_of_showsNothing (h : look.Answers held) {i : Item}
    (hnothing : i.ShowsNothing held) : ¬∃ c, i.Shows held c := by
  rintro ⟨c, hc⟩
  have hquote := ofItem_of_shows h hc
  rw [ofItem_of_showsNothing h hnothing] at hquote
  cases hquote

/-- Where lookups succeed, the quote of an item, be it a message that is kept or one that is being
written, shows exactly what the rule that applies to it says. There is no quote exactly if no rule
applies, that is if the item has nothing to show, and that is then the error. -/
theorem ofItem_eq_ok_iff_shows (h : look.Answers held) (i : Item) :
    (∀ s, ofItem look i = .ok s ↔
      ∃ c, i.Shows held c ∧ s = ⟨i.timestamp, i.author, false, c⟩) ∧
    (∀ e, ofItem look i = .error e ↔ e = .emptySource ∧ i.ShowsNothing held) ∧
    (i.ShowsNothing held ↔ ¬∃ c, i.Shows held c) := by
  refine ⟨fun s => ⟨exists_shows_of_ofItem h, ?_⟩, fun e => ⟨showsNothing_of_ofItem h, ?_⟩,
    not_shows_of_showsNothing h, fun hnone => ?_⟩
  · rintro ⟨c, hc, rfl⟩
    exact ofItem_of_shows h hc
  · rintro ⟨rfl, hnothing⟩
    exact ofItem_of_showsNothing h hnothing
  · exact (i.shows_or_showsNothing held).resolve_left hnone

/-- Of a message with the rest of a long text and an attachment that there is no record of, the
latter is shown; without it, and with blanks for a text, there is nothing to show. -/
theorem ofItem_shows_unknown_attachment :
    let rest : AttachmentId := ⟨⟨.replicate 16 1⟩⟩
    let unknown : AttachmentId := ⟨⟨.replicate 16 2⟩⟩
    let pointer : AttachmentPointer := ⟨rest, "text/x-signal-plain", none, 4096, "key", .enqueued⟩
    let held : Holdings :=
      ⟨fun id => if id = rest then some (.pointer pointer) else none, fun _ => none⟩
    let look : Lookup := ⟨fun _ => .ok none, fun _ _ => .ok none,
      fun id => .ok (held.attachment? id), fun info => .ok (held.sticker? info)⟩
    let i : Item :=
      { timestamp := 1000, author := ⟨⟨.replicate 16 3⟩, none⟩, body := some " Hi "
        ranges := some ⟨[]⟩, attachments := [rest, unknown] }
    look.Answers held ∧
    ofItem look i = .ok ⟨1000, i.author, false,
      .attachment (some " Hi ") none ⟨none, none, .unavailable⟩⟩ ∧
    ofItem look { i with body := some " \u2003", attachments := [rest] } = .error .emptySource := by
  intro rest unknown pointer held look i
  have hlook : look.Answers held := ⟨fun _ => rfl, fun _ => rfl⟩
  have hrest : held.IsRestOfText rest := ⟨.pointer pointer, rfl, rfl⟩
  have hunknown : ¬held.IsRestOfText unknown := by
    rintro ⟨a, ha, -⟩
    cases ha
  have hvisible : i.Visible := ⟨rfl, by simp [i]⟩
  refine ⟨hlook, ?_, ?_⟩
  · obtain ⟨hquote, -⟩ := ofItem_eq_ok_iff_shows hlook i
    have hfirst : held.FirstMedia i.attachments unknown :=
      ⟨[rest], [], rfl, by simpa using hrest, hunknown⟩
    exact (hquote _).mpr ⟨_, .captioned ⟨hvisible, rfl, rfl⟩ hfirst rfl (by decide), rfl⟩
  · obtain ⟨-, herror, -⟩ := ofItem_eq_ok_iff_shows hlook
      { i with body := some " \u2003", attachments := [rest] }
    refine (herror _).mpr ⟨rfl, ⟨⟨hvisible.notDeleted, hvisible.notExpired⟩, rfl, rfl⟩, ?_, ?_⟩
    · simpa using hrest
    · decide

end Snapshot

end Frozen

end Quotation
