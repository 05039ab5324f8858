import Quotation.Proofs.Store.Attachments
import Quotation.Proofs.Store.Messages
import Quotation.Proofs.Store.Outbox

/-!
# Runs of operations

The operations that may change a database, in any order and with any arguments. One that fails
leaves the database as it was.

* `Operation`, `Database.perform`, `Database.after`, `Database.run`;
* `Database.bare`: a database without tables that opening leaves as it is;
* `Contents.received`: what does not depend on outgoing messages;
* `Contents.after`, `Contents.run`: the same on the records, with `Contents.after_eq` for one
  operation and `Contents.run_fresh` for a run that starts with an empty database.
-/

namespace Quotation.Store

/-- The operations that may change a database. -/
inductive Operation
  | insertMessage (m : Message)
  | markViewOnceComplete (id : MessageId)
  | markRemotelyDeleted (id : MessageId)
  | insertAttachment (a : Attachment) (now : Instant)
  | setDownloadState (id : AttachmentId) (state : DownloadState)
  /-- What reading the file gives stands for the file. -/
  | completeDownload (id : AttachmentId) (localPath : RawPath)
      (contents : Except FileError (List UInt8))
  | installSticker (s : InstalledSticker)
  /-- A transaction to which messages are added, of which those with a name that is taken are
  refused, and which is committed or given up. -/
  | write (os : List StoredOutgoing) (commits : Bool)

/-- Whether a message that is to be inserted was received in a year of four digits. -/
def Operation.Dated : Operation → Prop
  | insertMessage m => m.receivedAt.Dated
  | _ => True

instance (op : Operation) : Decidable op.Dated :=
  match op with
  | .insertMessage m => inferInstanceAs (Decidable m.receivedAt.Dated)
  | .markViewOnceComplete _ => .isTrue trivial
  | .markRemotelyDeleted _ => .isTrue trivial
  | .insertAttachment _ _ => .isTrue trivial
  | .setDownloadState _ _ => .isTrue trivial
  | .completeDownload _ _ _ => .isTrue trivial
  | .installSticker _ => .isTrue trivial
  | .write _ _ => .isTrue trivial

/-- Whether a message that is to be inserted was received at an instant that is read back. -/
def Operation.Kept : Operation → Prop
  | insertMessage m => m.receivedAt.Kept
  | _ => True

instance (op : Operation) : Decidable op.Kept :=
  match op with
  | .insertMessage m => inferInstanceAs (Decidable m.receivedAt.Kept)
  | .markViewOnceComplete _ => .isTrue trivial
  | .markRemotelyDeleted _ => .isTrue trivial
  | .insertAttachment _ _ => .isTrue trivial
  | .setDownloadState _ _ => .isTrue trivial
  | .completeDownload _ _ _ => .isTrue trivial
  | .installSticker _ => .isTrue trivial
  | .write _ _ => .isTrue trivial

/-- A transaction after an attempt to add a message. -/
def WriteTransaction.attempt (tx : WriteTransaction) (o : StoredOutgoing) : WriteTransaction :=
  match tx.insertOutgoing o.id o.message o.createdAt with
  | .ok tx => tx
  | .error _ => tx

namespace Database

/-- Carries out an operation. -/
def perform (db : Database) : Operation → Except StoreError Database
  | .insertMessage m => db.insertMessage m
  | .markViewOnceComplete id => (db.markViewOnceComplete id).map (·.1)
  | .markRemotelyDeleted id => (db.markRemotelyDeleted id).map (·.1)
  | .insertAttachment a now => db.insertAttachment a now
  | .setDownloadState id state => (db.setDownloadState id state).map (·.1)
  | .completeDownload id localPath contents => db.completeDownload id localPath contents
  | .installSticker s => db.installSticker s
  | .write os commits =>
    let tx := os.foldl WriteTransaction.attempt (WriteTransaction.begin db)
    .ok (if commits then tx.commit else tx.rollback)

/-- The database after an operation, whether that succeeds or not. -/
def after (db : Database) (op : Operation) : Database :=
  match db.perform op with
  | .ok db' => db'
  | .error _ => db

/-- The database after some operations. -/
def run (db : Database) (ops : List Operation) : Database :=
  ops.foldl after db

/-- A database without tables whose number says that it has been set up, so that it is opened as it
is. -/
def bare : Database := ⟨1, {}⟩

theorem setUp_bare : setUp bare = .ok () bare := by
  rfl

theorem run_append (db : Database) (ops ops' : List Operation) :
    db.run (ops ++ ops') = (db.run ops).run ops' :=
  List.foldl_append

end Database

namespace Contents

/-- The contents with an outgoing message whose name is new. -/
def addOutgoing (c : Contents) (o : StoredOutgoing) : Contents :=
  if c.outgoing.any (·.id == o.id) then c else { c with outgoing := c.outgoing ++ [o] }

/-- The contents without the outgoing messages. -/
def received (c : Contents) : Contents :=
  { c with outgoing := [] }

theorem received_foldl_addOutgoing (c : Contents) (os : List StoredOutgoing) :
    (os.foldl addOutgoing c).received = c.received := by
  induction os generalizing c with
  | nil => rfl
  | cons o os ih =>
    rw [List.foldl_cons, ih, addOutgoing]
    split <;> rfl

/-- The contents after an operation. -/
def after (c : Contents) : Operation → Contents
  | .insertMessage m =>
    if c.hasMessage m.id then c else { c with messages := c.messages ++ [m] }
  | .markViewOnceComplete id => c.changeMessage id .viewed
  | .markRemotelyDeleted id => c.changeMessage id .tombstone
  | .insertAttachment a now =>
    if c.attachments.any (·.1.id == a.id) then c
    else { c with attachments := c.attachments ++ [(a, now)] }
  | .setDownloadState id state => c.changeAttachments (isPointerOf id) (.withState state)
  | .completeDownload id localPath (.ok bytes) =>
    if c.attachments.any (·.1.id == id) then
      c.changeAttachments (·.id == id) (.fetched localPath bytes)
    else c
  | .completeDownload _ _ (.error _) => c
  | .installSticker s =>
    { c with stickers := c.stickers.filter (fun t : InstalledSticker => !t.samePlace s) ++ [s] }
  | .write os commits => if commits then os.foldl addOutgoing c else c

/-- The contents after some operations. -/
def run (c : Contents) (ops : List Operation) : Contents :=
  ops.foldl after c

theorem attempt_eq (c : Contents) (db : Database) (o : StoredOutgoing) :
    WriteTransaction.attempt ⟨db, c.database⟩ o = ⟨db, (c.addOutgoing o).database⟩ := by
  rw [WriteTransaction.attempt, WriteTransaction.insertOutgoing, insertOutgoing_eq, addOutgoing]
  cases c.outgoing.any (·.id == o.id) <;> rfl

theorem foldl_attempt_eq (c : Contents) (db : Database) (os : List StoredOutgoing) :
    os.foldl .attempt (WriteTransaction.mk db c.database) =
      ⟨db, (os.foldl addOutgoing c).database⟩ := by
  induction os generalizing c with
  | nil => rfl
  | cons o os ih => rw [List.foldl_cons, List.foldl_cons, attempt_eq, ih]

/-- An operation does to the database what it does to the records. -/
theorem after_eq (c : Contents) (op : Operation) :
    c.database.after op = (c.after op).database := by
  cases op with
  | insertMessage m =>
    rw [Database.after, Database.perform, insertMessage_eq, after, hasMessage]
    cases c.messages.any (·.id == m.id) <;> rfl
  | markViewOnceComplete id =>
    rw [Database.after, Database.perform, markViewOnceComplete_eq]
    rfl
  | markRemotelyDeleted id =>
    rw [Database.after, Database.perform, markRemotelyDeleted_eq]
    rfl
  | insertAttachment a now =>
    rw [Database.after, Database.perform, insertAttachment_eq, after]
    cases c.attachments.any (·.1.id == a.id) <;> rfl
  | setDownloadState id state =>
    rw [Database.after, Database.perform, setDownloadState_eq]
    rfl
  | completeDownload id localPath contents =>
    rcases contents with e | bytes
    · rw [Database.after, Database.perform, completeDownload_error]
      rfl
    · rw [Database.after, Database.perform, completeDownload_eq, after]
      cases c.attachments.any (·.1.id == id) <;> rfl
  | installSticker s =>
    rw [Database.after, Database.perform, installSticker_eq]
    rfl
  | write os commits =>
    rw [Database.after, Database.perform, WriteTransaction.begin, foldl_attempt_eq]
    cases commits <;> rfl

theorem run_eq (c : Contents) (ops : List Operation) :
    c.database.run ops = (c.run ops).database := by
  induction ops generalizing c with
  | nil => rfl
  | cons op ops ih =>
    rw [Database.run, List.foldl_cons, after_eq]
    exact ih (c.after op)

/-- What a run leads to from an empty database holds records. -/
theorem run_fresh (ops : List Operation) :
    Database.fresh.run ops = (run {} ops).database := by
  rw [← database_empty, run_eq]

end Contents

end Quotation.Store
