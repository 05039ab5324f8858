import Quotation.Store.Fetched

/-!
# The layout of a database

The four tables of the store and their indexes, and how a database comes to have them.

* `Layout.messages`, `Layout.attachments`, `Layout.stickers`, `Layout.outgoing`: the empty tables;
* `Layout.addTable`, `Layout.addIndex`: what is added unless it is there;
* `Database.setUp`: sets the tables up in a database whose number is 0 and leaves any later one
  alone; `Database.prepare` is what becomes of it.
-/

namespace Quotation.Store

/-- The state in which something ends, whether it succeeds or not. -/
def endState {ε σ α : Type} : EStateM.Result ε σ α → σ
  | .ok _ s => s
  | .error _ s => s

namespace Layout

/-- A column that always holds something. -/
def full (affinity : Affinity) (title : Identifier) : Column := ⟨title, affinity, false⟩

/-- A column that may hold nothing. -/
def sparse (affinity : Affinity) (title : Identifier) : Column := ⟨title, affinity, true⟩

/-- The messages that were received and sent. -/
def messages : Table where
  title := .small "messages"
  columns := [full .text (.small "id"), full .text (.small "thread_id"),
    full .integer (.small "timestamp"), full .text (.small "author_uuid"),
    sparse .text (.small "author_e164"), full .text (.small "direction"),
    sparse .text (.small "body"), sparse .text (.small "body_ranges"),
    full .text (.small "attachment_ids"), sparse .text (.small "sticker"),
    sparse .text (.small "contact_share"), full .integer (.small "is_view_once"),
    full .integer (.small "is_view_once_complete"), full .integer (.small "was_remotely_deleted"),
    sparse .text (.small "quoted_message"), full .text (.small "received_at")]
  key := [0]
  rows := []

/-- Attachments; a row with a local path is a stream, any other a pointer. -/
def attachments : Table where
  title := .small "attachments"
  columns := [full .text (.small "id"), full .text (.small "content_type"),
    sparse .text (.small "source_filename"), full .integer (.small "byte_count"),
    sparse .text (.small "local_path"), sparse .text (.small "digest"),
    sparse .text (.small "cdn_key"), sparse .text (.small "pointer_state"),
    full .text (.small "created_at")]
  key := [0]
  rows := []

/-- Installed stickers. -/
def stickers : Table where
  title := .small "stickers"
  columns := [full .text (.small "pack_id"), full .text (.small "pack_key"),
    full .integer (.small "sticker_id"), full .text (.small "content_type"),
    sparse .text (.small "emoji"), full .text (.small "local_path")]
  key := [0, 2]
  rows := []

/-- Messages that wait to be sent. -/
def outgoing : Table where
  title := .small "outgoing_messages"
  columns := [full .text (.small "id"), full .text (.small "thread_id"),
    full .integer (.small "timestamp"), full .blob (.small "payload"),
    full .text (.small "created_at")]
  key := [0]
  rows := []

/-- The tables of the layout. -/
def tables : List Table := [messages, attachments, stickers, outgoing]

/-- A step of setting up: a table or an index that is added, unless there is one of its name. -/
inductive Step
  | table (t : Table)
  | index (title : Identifier) (table : String) (columns : List String)
  deriving Repr

/-- The index by which the original of a quote is found. -/
def messagesByAuthor : Identifier := .small "idx_messages_ts_author"

/-- The index of the messages of a thread. -/
def messagesByThread : Identifier := .small "idx_messages_thread"

/-- The index of the messages of a thread that wait to be sent. -/
def outgoingByThread : Identifier := .small "idx_outgoing_thread"

/-- All indexes. -/
def indexes : List Identifier := [messagesByAuthor, messagesByThread, outgoingByThread]

/-- All steps in order. -/
def steps : List Step :=
  [.table messages, .index messagesByAuthor "messages" ["timestamp", "author_uuid"],
    .index messagesByThread "messages" ["thread_id", "timestamp"], .table attachments,
    .table stickers, .table outgoing,
    .index outgoingByThread "outgoing_messages" ["thread_id", "timestamp"]]

/-- Adds a table unless there is a table or a view of its name, which is then taken for it. -/
def addTable (db : Database) (t : Table) : Except StatementError Database :=
  if db.named t.name then .ok db
  else if db.schema.indexes.any (·.key == t.name) then .error (.indexNamed t.title.text)
  else .ok (db.pushTable t)

/-- Adds an index of some columns of a table unless there is an index of its name, which is then
taken for it, whatever it is an index of. -/
def addIndex (db : Database) (title : Identifier) (table : String) (columns : List String) :
    Except StatementError Database :=
  match db.table? table, db.view? table with
  | none, none => .error (.noSuchTable ("main." ++ table))
  | none, some _ => .error .viewNotIndexed
  | some t, _ =>
    if db.named title.key then .error (.tableNamed title.text)
    else if db.schema.indexes.any (·.key == title.key) then .ok db
    else (columns.mapM t.position).map fun _ => db.pushIndex title

/-- Carries out one step. -/
def Step.apply (db : Database) : Step → Except StatementError Database
  | .table t => addTable db t
  | .index title name columns => addIndex db title name columns

/-- Carries out one step on a database. One that fails changes nothing. -/
def Step.carryOut (step : Step) : EStateM StoreError Database Unit := fun db =>
  match step.apply db with
  | .ok db => .ok () db
  | .error e => .error (.migration e) db

end Layout

namespace Database

/-- A database without any table. -/
def blank : Database := ⟨0, {}⟩

/-- Sets a database up before anything else is done with it. One whose number is 0 gets the tables
that it lacks, step by step, and then the number 1; one with a later number is left as it is. What
was done before a step fails stays done. -/
def setUp : EStateM StoreError Database Unit := do
  let version := (← get).version
  if version < 0 then
    throw (.column (.outOfRange 0 version))
  else if version = 0 then
    Layout.steps.forM Layout.Step.carryOut
    modify fun db => { db with version := 1 }

/-- A database that has been set up. -/
def prepare (db : Database) : Except StoreError Database :=
  match setUp db with
  | .ok _ after => .ok after
  | .error e _ => .error e

/-- A database after setting it up, whether that succeeded or not. -/
def afterSetUp (db : Database) : Database :=
  endState (setUp db)

/-- A database with the four tables, all empty. -/
def fresh : Database where
  version := 1
  schema := { tables := Layout.tables, indexes := Layout.indexes }

end Database

end Quotation.Store
