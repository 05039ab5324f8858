import Quotation.Proofs.Quote.Kinds
import Quotation.Proofs.Store.Subject

/-!
# What a quote reads

Of all that is kept, the quote of a message depends on the message, on the records of its
attachments and of the picture of its sticker, and on the installed sticker.

* `Lookup.AgreeFor`: lookups that answer the same about these;
* `Source.ofItem_congr`, `Snapshot.contentOf_congr`, `Snapshot.ofItem_congr`: the two steps of a
  quote and the whole of it, under such lookups;
* `Message.reads`: the records besides the message;
* `quote_reads_own_records`.
-/

namespace Quotation

/-- Lookups that answer the same about what an item refers to, be it by failing in the same way. -/
structure Lookup.AgreeFor (look look' : Lookup) (i : Item) : Prop where
  attachment : ∀ id ∈ i.attachments, look'.attachment id = look.attachment id
  picture : ∀ s ∈ i.sticker, look'.attachment s.attachment = look.attachment s.attachment
  sticker : ∀ s ∈ i.sticker, look'.sticker s.info = look.sticker s.info

variable {look look' : Lookup}

theorem Lookup.agreeFor_of_eq (hattachment : look'.attachment = look.attachment)
    (hsticker : look'.sticker = look.sticker) (i : Item) : look.AgreeFor look' i where
  attachment id _ := congrFun hattachment id
  picture s _ := congrFun hattachment s.attachment
  sticker s _ := congrFun hsticker s.info

/-! ### What is decided -/

namespace Source

theorem primaryAttachment_congr {ids : List AttachmentId}
    (h : ∀ id ∈ ids, look'.attachment id = look.attachment id) :
    primaryAttachment look' ids = primaryAttachment look ids := by
  induction ids with
  | nil => rfl
  | cons id ids ih =>
    rw [List.forall_mem_cons] at h
    rw [primaryAttachment, primaryAttachment, h.1, ih h.2]

/-- Nothing but the attachments is looked up to decide what is shown. -/
theorem ofItem_congr {i : Item}
    (h : ∀ id ∈ i.attachments, look'.attachment id = look.attachment id) :
    ofItem look' i = ofItem look i := by
  rw [ofItem, ofItem, primaryAttachment_congr h]

/-- The attachment of which the record is looked up when a part of a message is frozen. -/
def picture? : Source → Option AttachmentId
  | attachmentWithCaption id _ _ _ _ => id
  | sticker _ id => id
  | _ => none

/-- The sticker that is looked up. -/
def sticker? : Source → Option StickerRef
  | sticker info _ => some info
  | _ => none

/-- What is looked up when a part of an item is frozen is among what the item refers to. -/
theorem agree_of_ofItem {i : Item} {source : Source} (h : look.AgreeFor look' i)
    (hsource : ofItem look i = .ok source) :
    (∀ id ∈ source.picture?, look'.attachment id = look.attachment id) ∧
      ∀ info ∈ source.sticker?, look'.sticker info = look.sticker info := by
  cases decided_of_ofItem hsource with
  | deleted => exact ⟨nofun, nofun⟩
  | expired => exact ⟨nofun, nofun⟩
  | sticker hs =>
    constructor
    · rintro _ ⟨⟩
      exact h.picture _ hs
    · rintro _ ⟨⟩
      exact h.sticker _ hs
  | contact name => exact ⟨nofun, nofun⟩
  | @captioned id hprimary =>
    obtain ⟨caption, ranges, heq, -⟩ := exists_caption (some id) i.body i.ranges none none
    obtain ⟨before, after, hids, -⟩ := firstMedia_of_primaryAttachment hprimary
    have hmem : id ∈ i.attachments := by
      rw [hids]
      exact List.mem_append_right before List.mem_cons_self
    rw [heq]
    refine ⟨?_, nofun⟩
    rintro _ ⟨⟩
    exact h.attachment id hmem
  | text htext =>
    obtain ⟨s, ranges, rfl, -⟩ := exists_plainText_of_ofText htext
    exact ⟨nofun, nofun⟩

end Source

/-! ### What is frozen -/

theorem Resolved.ofId?_congr {id : Option AttachmentId}
    (h : ∀ name ∈ id, look'.attachment name = look.attachment name) :
    ofId? look' id = ofId? look id := by
  cases id with
  | none => rfl
  | some name => rw [ofId?, ofId?, ofId, ofId, h name rfl]

namespace Snapshot

theorem stickerAttachment_congr {info : StickerRef} (h : look'.sticker info = look.sticker info) :
    stickerAttachment look' info = stickerAttachment look info := by
  funext r
  rw [stickerAttachment, stickerAttachment, h]

/-- What is frozen depends on one attachment at most, and on the sticker if it is one. -/
theorem contentOf_congr {source : Source}
    (hpicture : ∀ id ∈ source.picture?, look'.attachment id = look.attachment id)
    (hsticker : ∀ info ∈ source.sticker?, look'.sticker info = look.sticker info) :
    contentOf look' source = contentOf look source := by
  cases source with
  | plainText body ranges => rfl
  | attachmentWithCaption id caption ranges contentType sourceFilename =>
    have hresolved : Resolved.ofId? look' id = Resolved.ofId? look id :=
      Resolved.ofId?_congr hpicture
    rw [contentOf, contentOf, hresolved]
  | sticker info id =>
    have hresolved : Resolved.ofId? look' id = Resolved.ofId? look id :=
      Resolved.ofId?_congr hpicture
    rw [contentOf, contentOf, hresolved, stickerAttachment_congr (hsticker info rfl)]
  | contactShare name => rfl
  | remotelyDeleted => rfl
  | viewOnceExpired => rfl

theorem ofItem_congr {i : Item} (h : look.AgreeFor look' i) : ofItem look' i = ofItem look i := by
  rw [ofItem, ofItem, Source.ofItem_congr h.attachment]
  cases hsource : Source.ofItem look i with
  | error e => rfl
  | ok source =>
    obtain ⟨hpicture, hsticker⟩ := Source.agree_of_ofItem h hsource
    have hcontent := contentOf_congr hpicture hsticker
    rw [Except.bind, Except.bind, build, build, hcontent]

theorem ofMessage_congr {id : MessageId} (hmessage : look'.message id = look.message id)
    (h : ∀ m, look.message id = .ok (some m) → look.AgreeFor look' m.item) :
    ofMessage look' id = ofMessage look id := by
  rw [ofMessage, ofMessage, hmessage]
  rcases hfound : look.message id with e | _ | m
  · rfl
  · rfl
  · exact ofItem_congr (h m hfound)

end Snapshot

/-! ### Operations on other records -/

open Store in
/-- The records besides the message that its quote reads. -/
def Message.reads (m : Message) : List RecordName :=
  m.attachments.map .attachment ++
    match m.sticker with
    | some s => [.attachment s.attachment, .sticker s.info.packId s.info.number]
    | none => []

namespace Store

/-- Databases in which the records that a message refers to are the same answer the same about
them. -/
theorem agreeFor_of_sameRecord {db db' : Database} {m : Message}
    (h : ∀ name ∈ m.reads, db.SameRecord db' name) : db.lookup.AgreeFor db'.lookup m.item where
  attachment id hid := h _ (List.mem_append_left _ (List.mem_map_of_mem hid))
  picture s hs := by
    have hsticker : m.sticker = some s := hs
    exact h (.attachment s.attachment) (by simp [Message.reads, hsticker])
  sticker s hs := by
    have hsticker : m.sticker = some s := hs
    exact h (.sticker s.info.packId s.info.number) (by simp [Message.reads, hsticker])
      s.info.packKey

theorem ofMessage_run_of_spared (ops : List Operation) {more : List Operation} {id : MessageId}
    (hmessage : ∀ op ∈ more, op.subject? ≠ some (.message id))
    (hreads : ∀ m, (Database.fresh.run ops).message? id = .ok (some m) →
      ∀ name ∈ m.reads, ∀ op ∈ more, op.subject? ≠ some name) :
    Snapshot.ofMessage ((Database.fresh.run ops).run more).lookup id =
      Snapshot.ofMessage (Database.fresh.run ops).lookup id := by
  refine Snapshot.ofMessage_congr (sameRecord_run ops hmessage) fun m hm => ?_
  exact agreeFor_of_sameRecord fun name hname => sameRecord_run ops (hreads m hm name hname)

end Store

/-- The quote of a message is the same under any two lookups that answer the same about the message
and about what it refers to, be they successful or not. In a database it is therefore left
unchanged, here and as it is sent, by all operations that name neither the message nor anything it
refers to. -/
theorem quote_reads_own_records (id : MessageId) :
    (∀ look look' : Lookup, look'.message id = look.message id →
      (∀ m, look.message id = .ok (some m) →
        (∀ a ∈ m.attachments, look'.attachment a = look.attachment a) ∧
        ∀ s ∈ m.sticker, look'.attachment s.attachment = look.attachment s.attachment ∧
          look'.sticker s.info = look.sticker s.info) →
      Snapshot.ofMessage look' id = Snapshot.ofMessage look id) ∧
    ∀ ops more : List Store.Operation,
      let before := Store.Database.fresh.run ops
      let after := before.run more
      (∀ op ∈ more, op.subject? ≠ some (.message id)) →
      (∀ m, before.message? id = .ok (some m) →
        ∀ name ∈ m.reads, ∀ op ∈ more, op.subject? ≠ some name) →
      Snapshot.ofMessage after.lookup id = Snapshot.ofMessage before.lookup id ∧
        (Snapshot.ofMessage after.lookup id).map Snapshot.wire =
          (Snapshot.ofMessage before.lookup id).map Snapshot.wire := by
  constructor
  · intro look look' hmessage h
    refine Snapshot.ofMessage_congr hmessage fun m hm => ?_
    obtain ⟨hattachments, hsticker⟩ := h m hm
    exact ⟨hattachments, fun s hs => (hsticker s hs).1, fun s hs => (hsticker s hs).2⟩
  · intro ops more before after hmessage hreads
    have hsame := Store.ofMessage_run_of_spared ops hmessage hreads
    exact ⟨hsame, congrArg (Except.map Snapshot.wire) hsame⟩

/-- The quote of a sticker, while a message of the same sticker is added and deleted and another
sticker of the pack is installed, and under lookups that fail for all other records. -/
theorem quote_reads_own_records_sticker :
    let info : StickerRef := ⟨.replicate 16 7, .replicate 32 8, 4⟩
    let picture : AttachmentId := ⟨⟨.replicate 16 9⟩⟩
    let m : Message :=
      { Store.leapMessage with isViewOnce := false, sticker := some ⟨info, picture, none⟩ }
    let other : Message := { m with id := ⟨⟨.replicate 16 4⟩⟩ }
    let before := Store.Database.fresh.run [.insertMessage m]
    let after := before.run [.insertMessage other, .markRemotelyDeleted other.id,
      .installSticker ⟨{ info with number := 5 }, "image/png", none, ""⟩, .write [] true]
    let look : Lookup :=
      { message := fun id => if id = m.id then before.message? id else .error (.file .notFound)
        messageAt := fun _ _ => .error (.file .notFound)
        attachment := fun id => if id = picture then before.attachment? id
          else .error (.file .notFound)
        sticker := fun i => if i = info then before.sticker? i else .error (.file .notFound) }
    let s : Snapshot := ⟨m.timestamp, m.author, false,
      .sticker info ⟨some "image/webp", none, .unavailable⟩⟩
    Snapshot.ofMessage before.lookup m.id = .ok s ∧ Snapshot.ofMessage after.lookup m.id = .ok s ∧
      Snapshot.ofMessage look m.id = .ok s := by
  intro info picture m other before after look s
  obtain ⟨hagree, hspared⟩ := quote_reads_own_records m.id
  have hmessage : before.message? m.id = .ok (some m) := by
    have hkept : ∀ op ∈ [Store.Operation.insertMessage m], op.Kept := by decide
    rw [show before = _ from Store.Contents.run_fresh _,
      (Store.Contents.kept_run hkept).message?_eq m.id]
    rfl
  have hpicture : before.lookup.attachment picture = .ok none :=
    Store.attachment?_run [.insertMessage m] picture
  have hsticker : before.lookup.sticker info = .ok none := by
    refine (congrArg (·.sticker? info) (Store.Contents.run_fresh [.insertMessage m])).trans ?_
    exact Store.Contents.sticker?_eq_shelf _ info
  have hbefore : Snapshot.ofMessage before.lookup m.id = .ok s := by
    have hfound : before.lookup.message m.id = .ok (some m) := hmessage
    have hvisible : m.item.Visible := ⟨rfl, by decide⟩
    have hsource : Source.ofItem before.lookup m.item = .ok (.sticker info (some picture)) :=
      Source.ofItem_of_sticker hvisible rfl
    rw [Snapshot.ofMessage, hfound]
    dsimp only
    rw [Snapshot.ofItem, hsource, Except.bind, Snapshot.build, Snapshot.contentOf, Resolved.ofId?,
      Resolved.ofId, hpicture]
    simp only [Except.map, mapError_ok, Resolved.ofRecord?, Except.bind, Snapshot.stickerAttachment,
      QuotedAttachment.ofResolved, Resolved.contentType, Option.map_none, Option.or_none, hsticker]
    rfl
  have hafter := (hspared [.insertMessage m] [.insertMessage other, .markRemotelyDeleted other.id,
    .installSticker ⟨{ info with number := 5 }, "image/png", none, ""⟩, .write [] true]
    (by decide) ?_).1
  · have hlook : look.message m.id = before.lookup.message m.id := by
      dsimp only [look]
      rw [if_pos rfl]
      rfl
    refine ⟨hbefore, hafter.trans hbefore, (hagree before.lookup look hlook ?_).trans hbefore⟩
    intro n hn
    cases hmessage.symm.trans hn
    have hpicture' : look.attachment picture = before.lookup.attachment picture := by
      dsimp only [look]
      rw [if_pos rfl]
      rfl
    have hsticker' : look.sticker info = before.lookup.sticker info := by
      dsimp only [look]
      rw [if_pos rfl]
      rfl
    constructor
    · intro a ha
      cases ha
    · rintro _ ⟨⟩
      exact ⟨hpicture', hsticker'⟩
  · intro n hn
    cases hmessage.symm.trans hn
    decide

end Quotation
