import Quotation.Instant.Text
import Quotation.Outgoing
import Quotation.Store.Layout

/-!
# The table of outgoing messages

A message that waits to be sent is kept whole, in its binary form; thread and time stand beside it
for finding and ordering it.

* `Database.insertOutgoing`, `Database.outgoing?`, `Database.outgoingOf`;
* `WriteTransaction`: messages are added to a working copy, which replaces the database when it is
  committed and is forgotten when it is not.
-/

namespace Quotation

/-- A message that waits to be sent, as the store keeps it. -/
structure StoredOutgoing where
  id : MessageId
  message : OutgoingMessage
  createdAt : Instant
  deriving DecidableEq, Repr

namespace Store

/-- The columns of an outgoing message that lookups return. -/
def outgoingColumns : List String :=
  ["id", "payload", "created_at"]

/-- The outgoing message that a row holds. -/
def outgoingOfRow (r : Fetched) : Except ColumnError StoredOutgoing := do
  let id ← r.text 0
  let payload ← r.blob 1
  let createdAt ← r.text 2
  let message ← readable 1 .binary (OutgoingMessage.binary.ofBytes payload)
  let id ← readable 0 .uuid (Uuid.read id)
  let createdAt ← readable? 2 .date (Instant.read createdAt)
  return ⟨⟨id⟩, message, createdAt⟩

namespace Database

/-- Adds a message under a name that is new; `now` is the time at which that is done. -/
def insertOutgoing (db : Database) (id : MessageId) (m : OutgoingMessage) (now : Instant) :
    Except StoreError Database :=
  (db.insert "outgoing_messages" [("id", .text id.text), ("thread_id", .text m.thread.text),
    ("timestamp", .ofWord m.timestamp), ("payload", .blob (OutgoingMessage.binary.encode m)),
    ("created_at", .text now.stored)]).mapError .statement

/-- The outgoing message of a name. -/
def outgoing? (db : Database) (id : MessageId) : Except StoreError (Option StoredOutgoing) := do
  match ← (db.select "outgoing_messages" outgoingColumns
    [.equals "id" (.text id.text)]).mapError .statement with
  | [] => return none
  | r :: _ => return some (← (outgoingOfRow ⟨outgoingColumns, r⟩).mapError .column)

/-- The outgoing messages of a thread, in the order of the integers that keep their times. -/
def outgoingOf (db : Database) (thread : ThreadId) : Except StoreError (List StoredOutgoing) := do
  let rows ← (db.selectOrdered "outgoing_messages" outgoingColumns
    [.equals "thread_id" (.text thread.text)] "timestamp").mapError .statement
  rows.mapM fun r => (outgoingOfRow ⟨outgoingColumns, r⟩).mapError .column

end Database

/-- A transaction that adds outgoing messages: the database as it was, and a working copy. -/
structure WriteTransaction where
  before : Database
  working : Database
  deriving Repr

namespace WriteTransaction

/-- A transaction on a database. -/
def begin (db : Database) : WriteTransaction := ⟨db, db⟩

/-- Adds a message to the working copy. -/
def insertOutgoing (tx : WriteTransaction) (id : MessageId) (m : OutgoingMessage)
    (now : Instant) : Except StoreError WriteTransaction :=
  (tx.working.insertOutgoing id m now).map fun db => { tx with working := db }

/-- The database after the transaction has been committed. -/
def commit (tx : WriteTransaction) : Database := tx.working

/-- The database after the transaction has been given up. -/
def rollback (tx : WriteTransaction) : Database := tx.before

end WriteTransaction

end Store

end Quotation
