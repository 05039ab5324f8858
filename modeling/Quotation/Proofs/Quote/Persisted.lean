import Quotation.Proofs.Quote.Reads

/-!
# Quoting before and after keeping

A message may be quoted before it is kept and after, and while it is being written.

* `Message.pending`: a message as it is while it is being written;
* `Contents.ofMessage_addMessage`: a message that is kept under a new name is read back as it was,
  and nothing that its quote looks up has changed;
* `quote_persists`.
-/

namespace Quotation

/-- A message as it is while it is being written: it has neither been deleted nor viewed. -/
def Message.pending (m : Message) : Item where
  timestamp := m.timestamp
  author := m.author
  body := m.body
  ranges := m.ranges
  attachments := m.attachments
  sticker := m.sticker
  contact := m.contact

/-- Where it has not been deleted and has not expired, a message is quoted as it was while it was
being written. -/
theorem Snapshot.ofItem_pending (look : Lookup) {m : Message} (h : m.item.Visible) :
    ofItem look m.pending = ofItem look m.item := by
  have hexpired : m.item.isExpired = false := Source.isExpired_of_visible h
  have hpending : m.pending.isExpired = false := rfl
  have hsource : Source.ofItem look m.pending = Source.ofItem look m.item := by
    rw [Source.ofItem, Source.ofItem, h.notDeleted, hexpired, hpending]
    rfl
  rw [ofItem, ofItem, hsource]
  rfl

namespace Store

namespace Contents

variable (c : Contents) {m : Message}

/-- A message that is added under a new name is found under it. -/
theorem message?_addMessage (hdated : m.receivedAt.Dated) (hnew : c.hasMessage m.id = false) :
    { c with messages := c.messages ++ [m] }.database.message? m.id = .ok (some m.reread) := by
  have hfound : (c.messages ++ [m]).find? (·.id == m.id) = some m := by
    rw [find?_append_of_new Message.id hnew, if_pos rfl]
  rw [message?_eq_answer, hfound, answer, if_pos hdated]

/-- The quote of a message that is added is the one that it had before. -/
theorem ofMessage_addMessage (hdated : m.receivedAt.Dated) (hnew : c.hasMessage m.id = false) :
    Snapshot.ofMessage { c with messages := c.messages ++ [m] }.database.lookup m.id =
      Snapshot.ofItem c.database.lookup m.item := by
  have hfound : { c with messages := c.messages ++ [m] }.database.lookup.message m.id =
      .ok (some m.reread) :=
    c.message?_addMessage hdated hnew
  have hattachment : { c with messages := c.messages ++ [m] }.database.lookup.attachment =
      c.database.lookup.attachment := by
    funext id
    exact (attachment?_eq _ id).trans (attachment?_eq c id).symm
  have hsticker : { c with messages := c.messages ++ [m] }.database.lookup.sticker =
      c.database.lookup.sticker := by
    funext info
    exact (sticker?_eq _ info).trans (sticker?_eq c info).symm
  rw [Snapshot.ofMessage, hfound]
  exact Snapshot.ofItem_congr (Lookup.agreeFor_of_eq hattachment hsticker m.item)

end Contents

/-- A message that can be kept is quoted afterwards as it could be quoted before, be it without
success; unless it was deleted or has expired, also as while it was being written. -/
theorem quote_persists (ops : List Operation) (m : Message) (hdated : m.receivedAt.Dated)
    (after : Database) (h : (Database.fresh.run ops).insertMessage m = .ok after) :
    let before := Database.fresh.run ops
    Snapshot.ofMessage after.lookup m.id = Snapshot.ofItem before.lookup m.item ∧
      (m.wasRemotelyDeleted = false → ¬(m.isViewOnce = true ∧ m.isViewOnceComplete = true) →
        Snapshot.ofMessage after.lookup m.id = Snapshot.ofItem before.lookup m.pending) := by
  intro before
  have hkept : Snapshot.ofMessage after.lookup m.id = Snapshot.ofItem before.lookup m.item := by
    simp only [before, Contents.run_fresh] at h ⊢
    rw [Contents.insertMessage_eq] at h
    split at h
    · cases h
    · rename_i hnew
      cases h
      exact Contents.ofMessage_addMessage _ hdated (Bool.not_eq_true _ ▸ hnew)
  refine ⟨hkept, fun hdeleted hexpired => hkept.trans ?_⟩
  exact (Snapshot.ofItem_pending before.lookup ⟨hdeleted, hexpired⟩).symm

/-- A message of a picture that is here. -/
theorem quote_persists_picture :
    let picture : AttachmentStream :=
      ⟨⟨⟨.replicate 16 5⟩⟩, "image/png", some "a.png", 7, "/tmp/a.png", .replicate 32 9⟩
    let m : Message :=
      { leapMessage with body := some "look", attachments := [picture.id] }
    let ops : List Operation := [.insertAttachment (.stream picture) m.receivedAt]
    let before := Database.fresh.run ops
    let s : Snapshot := ⟨m.timestamp, m.author, false,
      .attachment (some "look") none ⟨some "image/png", some "a.png", .stream picture⟩⟩
    ∃ after, before.insertMessage m = .ok after ∧
      Snapshot.ofItem before.lookup m.pending = .ok s ∧
      Snapshot.ofItem before.lookup m.item = .ok s ∧
      Snapshot.ofMessage after.lookup m.id = .ok s := by
  intro picture m ops before s
  have hpicture : before.lookup.attachment picture.id = .ok (some (.stream picture)) :=
    attachment?_run ops picture.id
  have hpending : Snapshot.ofItem before.lookup m.pending = .ok s := by
    have hprimary : Source.primaryAttachment before.lookup m.pending.attachments =
        .ok (some picture.id) := by
      refine Source.primaryAttachment_of_firstMedia ⟨[], [], rfl, by simp, _, hpicture, ?_⟩
      rintro _ ⟨⟩
      decide
    have hsource : Source.ofItem before.lookup m.pending =
        .ok (.attachmentWithCaption (some picture.id) (some "look") none none none) := by
      rw [Source.ofItem, hprimary]
      rfl
    exact Snapshot.ofItem_of_attachmentWithCaption hsource hpicture
  have hinsert : ∃ after, before.insertMessage m = .ok after := by
    rw [show before = _ from Contents.run_fresh ops]
    exact (Contents.insertMessage_eq_ok_iff _ m).mpr (by rfl)
  obtain ⟨after, hafter⟩ := hinsert
  obtain ⟨hkept, hwritten⟩ := quote_persists ops m (by decide) after hafter
  have hquote := (hwritten rfl (by decide)).trans hpending
  exact ⟨after, hafter, hpending, hkept.symm.trans hquote, hquote⟩

end Store

end Quotation
