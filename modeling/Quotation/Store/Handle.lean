import Quotation.Files.Basic
import Quotation.Store.Layout

/-!
# Open databases

A database is open in memory, where it is nobody else's, or in a file, where others may have it open
too.

* `Handle.ofPath`, `Handle.ofDefault`, `Handle.inMemory`: opening, which sets the tables up;
* `Handle.opening`, `Handle.leftBy`, `Handle.leftByDefault`: the files afterwards, also if it fails;
* `Handle.current`, `Handle.save`: the database as it is, and the change to another.
-/

namespace Quotation.Store

/-- An open database: the place of its file, if it is in one, and how it was seen last. -/
structure Handle where
  place : Option Location
  database : Database
  deriving Repr

namespace Handle

/-- An open database that is in no file. -/
def inMemory : Except StoreError Handle :=
  Database.blank.prepare.map (⟨none, ·⟩)

/-- The place that a path leads to and the database there; no file and an empty file are a database
without tables. -/
def find (fs : Files) (path : String) : Except StatementError (Location × Database) :=
  match fs.locate path with
  | .ok (.file place (.database db)) => .ok (place, db)
  | .ok (.file place (.bytes [])) => .ok (place, .blank)
  | .ok (.file _ (.bytes (_ :: _))) => .error .notADatabase
  | .ok (.vacant place) => .ok (place, .blank)
  | .ok (.directory _) => .error (.cannotOpen path)
  | .error _ => .error (.cannotOpen path)

/-- Opens the database that a path leads to. Two paths stand for a database in memory. -/
def ofPath (fs : Files) (path : String) : Except StoreError (Files × Handle) :=
  if path = "" ∨ path = ":memory:" then inMemory.map (fs, ·)
  else do
    let (place, db) ← (find fs path).mapError .statement
    let db ← db.prepare
    return (fs.put place (.database db), ⟨some place, db⟩)

/-- The files after a database could not be opened. What was done to set it up before a step failed
stays done. -/
def leftBy (fs : Files) (path : String) : Files :=
  match find fs path with
  | .ok (place, db) => fs.put place (.database db.afterSetUp)
  | .error _ => fs

/-- Opens the database that a path leads to, with the files as they are then. -/
def opening (path : String) : EStateM StoreError Files Handle := fun fs =>
  match ofPath fs path with
  | .ok (opened, h) => .ok h opened
  | .error e => .error e (leftBy fs path)

/-- Opens the database of a user, whose directory is made first. -/
def ofDefault (fs : Files) (home setApart : Option String) : Except StoreError (Files × Handle) :=
  match Path.dataDirectory? home setApart with
  | none => .error .noDataDirectory
  | some directory => do
    let fs ← (fs.makeParents (Path.database directory)).mapError .file
    ofPath fs (Path.database directory)

/-- The files after the database of a user could not be opened. -/
def leftByDefault (fs : Files) (home setApart : Option String) : Files :=
  match Path.dataDirectory? home setApart with
  | none => fs
  | some directory =>
    match fs.makeParents (Path.database directory) with
    | .ok fs => leftBy fs (Path.database directory)
    | .error _ => fs

/-- The database as it is now. -/
def current (h : Handle) (fs : Files) : Database :=
  match h.place.bind fun place => fs.entries.lookup place with
  | some (.database db) => db
  | _ => h.database

/-- Puts another database in the place of the present one; a file that was taken away does not come
back. -/
def save (h : Handle) (fs : Files) (db : Database) : Files × Handle :=
  let fs' := match h.place with
    | some place => if (fs.entries.lookup place).isSome then fs.put place (.database db) else fs
    | none => fs
  (fs', { h with database := db })

end Handle

end Quotation.Store
