import Quotation.Message
import Quotation.Store.Layout

/-!
# The table of messages

* `messageCells`, `messageOfRow`: a message as a row and back;
* `Database.insertMessage`, `Database.markViewOnceComplete`, `Database.markRemotelyDeleted`;
* `Database.message?`: the message of a name; `Database.messageAt?`: the message that an account
  sent at a time, the one received first if there are several.
-/

namespace Quotation.Store

/-- An optional value as a text in JSON, or nothing. -/
def jsonCell {α : Type} (c : Json.Codec α) (o : Option α) : Cell :=
  .ofText? (o.map c.print)

/-- The optional value that a column holds as a text in JSON. -/
def ofJsonCell {α : Type} (c : Json.Codec α) (column : Nat) (s : Option String) :
    Except ColumnError (Option α) :=
  match s with
  | none => .ok none
  | some s => (readable? column .json (c.parse s)).map some

/-- The columns of a message. -/
def messageColumns : List String :=
  ["id", "thread_id", "timestamp", "author_uuid", "author_e164", "direction", "body",
    "body_ranges", "attachment_ids", "sticker", "contact_share", "is_view_once",
    "is_view_once_complete", "was_remotely_deleted", "quoted_message", "received_at"]

/-- A message as the values of a row. -/
def messageCells (m : Message) : List Cell :=
  [.text m.id.text, .text m.thread.text, .ofWord m.timestamp, .text m.author.uuid.text,
    .ofText? m.author.e164, .text m.direction.text, .ofText? m.body,
    jsonCell TextRanges.json m.ranges, .text (AttachmentId.json.list.print m.attachments),
    jsonCell Sticker.json m.sticker, jsonCell ContactCard.json m.contact, .ofBool m.isViewOnce,
    .ofBool m.isViewOnceComplete, .ofBool m.wasRemotelyDeleted,
    jsonCell QuoteRecord.json m.quoted, .text m.receivedAt.stored]

/-- The message that a row holds. The kinds of all values are looked at before any value is read. -/
def messageOfRow (r : Fetched) : Except ColumnError Message := do
  let id ← r.text 0
  let thread ← r.text 1
  let timestamp ← r.word 2
  let authorUuid ← r.text 3
  let authorNumber ← r.text? 4
  let direction ← r.text 5
  let body ← r.text? 6
  let ranges ← r.text? 7
  let attachments ← r.text 8
  let sticker ← r.text? 9
  let contact ← r.text? 10
  let isViewOnce ← r.flag 11
  let isViewOnceComplete ← r.flag 12
  let wasRemotelyDeleted ← r.flag 13
  let quoted ← r.text? 14
  let receivedAt ← r.text 15
  let direction ← readable? 5 (.unknownDirection direction) (Direction.ofText? direction)
  let attachments ← readable? 8 .json (AttachmentId.json.list.parse attachments)
  let id ← readable 0 .uuid (Uuid.read id)
  let thread ← readable 1 .uuid (Uuid.read thread)
  let authorUuid ← readable 3 .uuid (Uuid.read authorUuid)
  let ranges ← ofJsonCell TextRanges.json 7 ranges
  let sticker ← ofJsonCell Sticker.json 9 sticker
  let contact ← ofJsonCell ContactCard.json 10 contact
  let quoted ← ofJsonCell QuoteRecord.json 14 quoted
  let receivedAt ← readable? 15 .date (Instant.read receivedAt)
  return {
    id := ⟨id⟩
    thread := ⟨thread⟩
    timestamp
    author := ⟨authorUuid, authorNumber⟩
    direction
    body
    ranges
    attachments
    sticker
    contact
    isViewOnce
    isViewOnceComplete
    wasRemotelyDeleted
    quoted
    receivedAt }

namespace Database

/-- Adds a message whose name is new. -/
def insertMessage (db : Database) (m : Message) : Except StoreError Database :=
  (db.insert "messages" (messageColumns.zip (messageCells m))).mapError .statement

/-- Notes that a view-once message has been viewed. Says whether there is such a message. -/
def markViewOnceComplete (db : Database) (id : MessageId) : Except StoreError (Database × Bool) :=
  ((db.update "messages" [("is_view_once_complete", .ofBool true)]
    [.equals "id" (.text id.text)]).map fun (db, n) => (db, 0 < n)).mapError .statement

/-- Notes that the author has deleted a message, and takes its content away. Says whether there is
such a message. -/
def markRemotelyDeleted (db : Database) (id : MessageId) : Except StoreError (Database × Bool) :=
  ((db.update "messages" [("was_remotely_deleted", .ofBool true), ("body", .null),
    ("body_ranges", .null), ("attachment_ids", .text "[]"), ("sticker", .null),
    ("contact_share", .null)] [.equals "id" (.text id.text)]).map fun (db, n) =>
      (db, 0 < n)).mapError .statement

/-- The message that the first of some rows holds. -/
def firstMessage (rows : Except StatementError (List Row)) :
    Except StoreError (Option Message) := do
  match ← rows.mapError .statement with
  | [] => return none
  | r :: _ => return some (← (messageOfRow ⟨messageColumns, r⟩).mapError .column)

/-- The message of a name. -/
def message? (db : Database) (id : MessageId) : Except StoreError (Option Message) :=
  firstMessage (db.select "messages" messageColumns [.equals "id" (.text id.text)])

/-- The message that an account sent at a time, of several the one whose text of the time of receipt
comes first. The phone number of the account does not matter. -/
def messageAt? (db : Database) (timestamp : UInt64) (author : Address) :
    Except StoreError (Option Message) :=
  firstMessage (db.selectOrdered "messages" messageColumns
    [.equals "timestamp" (.ofWord timestamp), .equals "author_uuid" (.text author.uuid.text)]
    "received_at")

end Database

end Quotation.Store
