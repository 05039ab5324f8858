import Quotation.Proofs.Store.Inventory
import Quotation.Proofs.Store.Ledger
import Quotation.Proofs.Store.Shelf

/-!
# What an operation leaves alone

An operation on messages, attachments or stickers names one record, and all others stay as they are.
That a statement of the database may replace rows or change several does not matter: no row of
another name is among them.

* `RecordName`, `Operation.subject?`: the record that an operation names;
* `Database.SameRecord`: lookups of a record that answer the same;
* `Contents.sameRecord_after`, `sameRecord_run`.
-/

namespace Quotation.Store

/-- The name of a record: that of a message, that of an attachment, or the place of an installed
sticker. -/
inductive RecordName
  | message (id : MessageId)
  | attachment (id : AttachmentId)
  | sticker (packId : Vector UInt8 16) (number : UInt32)
  deriving DecidableEq

/-- The record that an operation names. A message that is inserted may refer to attachments, but
does not name them, and a transaction names outgoing messages only. -/
def Operation.subject? : Operation → Option RecordName
  | insertMessage m => some (.message m.id)
  | markViewOnceComplete id => some (.message id)
  | markRemotelyDeleted id => some (.message id)
  | insertAttachment a _ => some (.attachment a.id)
  | setDownloadState id _ => some (.attachment id)
  | completeDownload id _ _ => some (.attachment id)
  | installSticker s => some (.sticker s.info.packId s.info.number)
  | write _ _ => none

/-- Whether the lookups of a record answer the same in two databases. A sticker is looked up by its
place, with any key of the pack. -/
def Database.SameRecord (before after : Database) : RecordName → Prop
  | .message id => after.message? id = before.message? id
  | .attachment id => after.attachment? id = before.attachment? id
  | .sticker packId number => ∀ packKey,
      after.sticker? ⟨packId, packKey, number⟩ = before.sticker? ⟨packId, packKey, number⟩

namespace Database.SameRecord

theorem rfl {db : Database} {name : RecordName} : db.SameRecord db name := by
  cases name with
  | message id => exact Eq.refl _
  | attachment id => exact Eq.refl _
  | sticker packId number => exact fun _ => Eq.refl _

theorem trans {db db' db'' : Database} {name : RecordName} (h : db.SameRecord db' name)
    (h' : db'.SameRecord db'' name) : db.SameRecord db'' name := by
  cases name with
  | message id => exact Eq.trans h' h
  | attachment id => exact Eq.trans h' h
  | sticker packId number => exact fun packKey => (h' packKey).trans (h packKey)

end Database.SameRecord

/-! ### One operation -/

section Step

variable {op : Operation}

theorem Ledger.after_of_subject_ne (l : Ledger) {id : MessageId}
    (h : op.subject? ≠ some (.message id)) : l.after op id = l id := by
  cases op with
  | insertMessage m =>
    have hid : id ≠ m.id := by
      rintro rfl
      exact h rfl
    rw [after]
    split
    · rfl
    · exact if_neg hid
  | markViewOnceComplete i =>
    have hid : id ≠ i := by
      rintro rfl
      exact h rfl
    exact if_neg hid
  | markRemotelyDeleted i =>
    have hid : id ≠ i := by
      rintro rfl
      exact h rfl
    exact if_neg hid
  | insertAttachment a now => rfl
  | setDownloadState i state => rfl
  | completeDownload i localPath contents => rfl
  | installSticker s => rfl
  | write os commits => rfl

theorem Inventory.after_of_subject_ne (v : Inventory) {id : AttachmentId}
    (h : op.subject? ≠ some (.attachment id)) : v.after op id = v id := by
  rcases v.after_cases id op with ⟨-, -, hsame⟩ | ⟨a, now, rfl, rfl, -, -⟩ | ⟨state, rfl, -⟩ |
    ⟨localPath, bytes, rfl, -⟩
  · exact hsame
  · exact absurd rfl h
  · exact absurd rfl h
  · exact absurd rfl h

theorem Shelf.after_of_subject_ne (v : Shelf) {packId : Vector UInt8 16} {number : UInt32}
    (h : op.subject? ≠ some (.sticker packId number)) :
    v.after op packId number = v packId number := by
  cases op with
  | installSticker s =>
    refine if_neg fun hplace => ?_
    rw [Bool.and_eq_true, beq_iff_eq, beq_iff_eq] at hplace
    obtain ⟨rfl, rfl⟩ := hplace
    exact h rfl
  | insertMessage m => rfl
  | markViewOnceComplete id => rfl
  | markRemotelyDeleted id => rfl
  | insertAttachment a now => rfl
  | setDownloadState id state => rfl
  | completeDownload id localPath contents => rfl
  | write os commits => rfl

/-- An operation leaves all records alone but the one that it names. -/
theorem Contents.sameRecord_after (c : Contents) {name : RecordName} (h : op.subject? ≠ some name) :
    c.database.SameRecord (c.after op).database name := by
  cases name with
  | message id =>
    have hsame : (c.after op).messages.find? (·.id == id) = c.messages.find? (·.id == id) := by
      have hledger := congrFun (c.ledger_after op) id
      rw [Ledger.after_of_subject_ne _ h] at hledger
      exact hledger
    rw [Database.SameRecord, message?_eq_answer, message?_eq_answer, hsame]
  | attachment id =>
    rw [Database.SameRecord, attachment?_eq_inventory, attachment?_eq_inventory, inventory_after,
      Inventory.after_of_subject_ne _ h]
  | sticker packId number =>
    intro packKey
    rw [sticker?_eq_shelf, sticker?_eq_shelf, shelf_after, Shelf.after_of_subject_ne _ h]

end Step

/-! ### Runs -/

theorem Contents.sameRecord_run (c : Contents) {ops : List Operation} {name : RecordName}
    (h : ∀ op ∈ ops, op.subject? ≠ some name) :
    c.database.SameRecord (c.run ops).database name := by
  induction ops generalizing c with
  | nil => exact .rfl
  | cons op ops ih =>
    obtain ⟨hop, hops⟩ := List.forall_mem_cons.mp h
    exact (c.sameRecord_after hop).trans (ih (c.after op) hops)

/-- After any run, operations that do not name a record leave it alone. -/
theorem sameRecord_run (ops : List Operation) {more : List Operation} {name : RecordName}
    (h : ∀ op ∈ more, op.subject? ≠ some name) :
    (Database.fresh.run ops).SameRecord ((Database.fresh.run ops).run more) name := by
  rw [Contents.run_fresh, Contents.run_eq]
  exact Contents.sameRecord_run _ h

end Quotation.Store
