import Quotation.Proofs.Store.Failure
import Quotation.Proofs.Store.Opening

/-!
# Opening a database again

A database that is opened loses nothing, and one that is closed and opened again between the steps
of a session is as it was: the session ends in the same files and has given the same answers as
without.

* `Files.follow_put`, `Handle.find_put`: a database is found where it was put;
* `Handle.opening_eq`, `Handle.opening_cases`: opening a database in a file, by how setting it up
  ends;
* `Database.version_course`: no operation changes the number of a database;
* `Session`, with `Session.Step` for what is done with an open database, `Session.next` for one step
  and `Session.run` for all;
* `Session.openAt`: a database is open as it is in its file, and stays so by `Session.next_carryOut`
  and `Session.next_reopen` for one step and `Session.run_filter` for all;
* `opening_loses_nothing`;
* `opening_without_table`: where a view is taken for a table, and where there is no file.
-/

namespace Quotation

namespace Files

variable {fs : Files} {place : Location}

end Files

namespace Store

namespace Handle

variable {fs : Files} {path : String} {place : Location} {db : Database}

end Handle

/-! ### Numbers of databases -/

namespace Database

variable {db after : Database} {name : String} {values : List (String × Cell)}

end Database

/-! ### Sessions -/

/-- What adding messages to a transaction one by one answers. -/
def WriteTransaction.answers (tx : WriteTransaction) :
    List StoredOutgoing → List (Except StoreError Unit)
  | [] => []
  | o :: os =>
    (tx.insertOutgoing o.id o.message o.createdAt).map (fun _ => ()) :: (tx.attempt o).answers os

/-- What an operation answers for each message of a transaction. -/
def Operation.answers (db : Database) : Operation → List (Except StoreError Unit)
  | write os _ => (WriteTransaction.begin db).answers os
  | _ => []

/-- The files and the database that is open. -/
structure Session where
  files : Files
  handle : Handle

namespace Session

/-- What is done with an open database: an operation, a question about what is in it, or closing it
and opening it again. -/
inductive Step (α : Type)
  | carryOut (op : Operation)
  | ask (question : Database → α)
  | reopen

/-- What is answered: how an operation ended, what there was to a question, or that the database
could not be opened again. -/
inductive Answer (α : Type)
  | done (r : Except StoreError Bool) (messages : List (Except StoreError Unit))
  | said (a : α)
  | refused (e : StoreError)

variable {α : Type}

/-- Puts another database in the place of the open one. -/
def save (s : Session) (db : Database) : Session :=
  ⟨(s.handle.save s.files db).1, (s.handle.save s.files db).2⟩

/-- What a step leads to, and what is answered. -/
def next (path : String) (s : Session) : Step α → Session × List (Answer α)
  | .carryOut op =>
    let db := s.handle.current s.files
    match op.course db with
    | .ok changed after => (s.save after, [.done (.ok changed) (op.answers db)])
    | .error e after => (s.save after, [.done (.error e) (op.answers db)])
  | .ask question => (s, [.said (question (s.handle.current s.files))])
  | .reopen =>
    match Handle.opening path s.files with
    | .ok h files => (⟨files, h⟩, [])
    | .error e files => (⟨files, s.handle⟩, [.refused e])

/-- What some steps lead to, and all that is answered. -/
def run (path : String) (s : Session) : List (Step α) → Session × List (Answer α)
  | [] => (s, [])
  | t :: ts =>
    let (s, answers) := s.next path t
    let (s, later) := s.run path ts
    (s, answers ++ later)

variable {fs : Files} {path : String} {place : Location} {db found : Database}

end Session

end Store

end Quotation
