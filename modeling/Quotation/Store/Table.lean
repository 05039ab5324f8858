import Quotation.Store.Error

/-!
# Tables

A database is a number, some tables, and beside these views and indexes. A table has named columns,
a key, and rows in the order in which they were inserted.

* `Identifier`: names, in which capital and small letters are the same;
* `Table`, `View`, `Schema`, `Database`;
* `Database.insert`, `Database.replace`, `Database.update`, `Database.select`: the statements, which
  fail without changing anything, and write all names in small letters;
* `Condition`: what the rows of a statement have to satisfy.
-/

namespace Quotation.Store

/-- A name in a database: the text that it was given as, and the text that it is found by, in which
the capital letters from A to Z are small. -/
structure Identifier where
  text : String
  key : String
  key_eq : key.toList = text.toList.map Char.toLower
  deriving DecidableEq, Repr

/-- The name that a text gives. -/
def Identifier.ofText (text : String) : Identifier where
  text
  key := .ofList (text.toList.map Char.toLower)
  key_eq := String.toList_ofList

instance : Coe String Identifier := ⟨.ofText⟩

/-- A name that is given in small letters. -/
def Identifier.small (text : String)
    (h : text.toList = text.toList.map Char.toLower := by rfl) : Identifier :=
  ⟨text, text, h⟩

/-- A column of a table. -/
structure Column where
  title : Identifier
  affinity : Affinity
  /-- Whether the column may hold nothing. -/
  nullable : Bool
  deriving DecidableEq, Repr

/-- The text that a column is found by. -/
@[reducible] def Column.name (c : Column) : String :=
  c.title.key

/-- The values of one row, in the order of the columns. -/
abbrev Row := List Cell

/-- A table. No two rows agree in all columns of the key. -/
structure Table where
  title : Identifier
  columns : List Column
  key : List Nat
  rows : List Row
  deriving DecidableEq, Repr

/-- The text that a table is found by. -/
@[reducible] def Table.name (t : Table) : String :=
  t.title.key

/-- A view, which shows something of the tables as a table, unless it does not fit them. -/
structure View where
  title : Identifier
  shown : List Table → Except StatementError Table

instance : Repr View := ⟨fun v => reprPrec v.title⟩

/-- The text that a view is found by. -/
@[reducible] def View.name (v : View) : String :=
  v.title.key

/-- What there is in a database: tables, views and indexes. What an index does is not seen but for
its name. -/
structure Schema where
  tables : List Table := []
  views : List View := []
  indexes : List Identifier := []
  deriving Repr

instance : Coe (List Table) Schema := ⟨fun tables => { tables }⟩

/-- A database: the number of its layout, and what there is in it.

Of the files of SQLite some things are left out, which this program does not make but may find:
triggers and virtual tables, constraints of tables other than their key and the values that have to
be there, defaults of columns, and real numbers. So are files that are locked or may only be read,
rows beyond the length that the engine takes, the journal that it keeps beside an open file, and
paths that begin with `file:`, which are read as URIs. -/
structure Database where
  version : Int
  schema : Schema
  deriving Repr

/-- The tables of a database. -/
@[reducible] def Database.tables (db : Database) : List Table :=
  db.schema.tables

/-- A condition on a row. -/
inductive Condition
  | equals (column : String) (value : Cell)
  | isNull (column : String)
  deriving DecidableEq, Repr

/-- The value of a row in a column. -/
def Row.cell (r : Row) (i : Nat) : Cell :=
  r[i]?.getD .null

/-- The column that a condition looks at. -/
def Condition.column : Condition → String
  | equals column _ => column
  | isNull column => column

/-- Whether a value satisfies a condition. -/
def Condition.holds : Condition → Cell → Bool
  | equals _ value, c => c.equals value
  | isNull _, c => c.kind == .null

namespace Table

/-- The place of a column. -/
def position (t : Table) (column : String) : Except StatementError Nat :=
  match t.columns.findIdx? (·.name == column) with
  | some i => .ok i
  | none => .error (.noSuchColumn column)

/-- A condition with the place of its column. -/
def locate (t : Table) (c : Condition) : Except StatementError (Nat × Condition) :=
  (t.position c.column).map (·, c)

/-- Whether a row satisfies all conditions. -/
def satisfies (conditions : List (Nat × Condition)) (r : Row) : Bool :=
  conditions.all fun (i, c) => c.holds (r.cell i)

/-- The values of a row in the columns of the key. -/
def keyOf (t : Table) (r : Row) : List Cell :=
  t.key.map r.cell

/-- The names of the columns of the key. -/
def keyNames (t : Table) : List String :=
  t.key.map fun i => (t.columns[i]?.map (·.title.text)).getD ""

/-- A value for a column as the column keeps it. -/
def convertAt (t : Table) (i : Nat) (c : Cell) : Cell :=
  (t.columns[i]?).elim c fun column => column.affinity.convert c

/-- The first column that has to hold something and holds nothing in a row. -/
def missing? (t : Table) (r : Row) : Option String :=
  ((t.columns.zip r).find? fun (column, c) => !column.nullable && c.kind == .null).map
    fun (column, _) => column.title.text

/-- Refuses a row that lacks a value. -/
def checkValues (t : Table) (r : Row) : Except StatementError Unit :=
  match t.missing? r with
  | some column => .error (.missingValue t.title.text column)
  | none => .ok ()

/-- Refuses rows of which two have the same key. -/
def checkKeys (t : Table) (rows : List Row) : Except StatementError Unit :=
  if (rows.map t.keyOf).Nodup then .ok () else .error (.duplicateKey t.title.text t.keyNames)

/-- The row with the given values and nothing in the other columns. -/
def rowOf (t : Table) (values : List (String × Cell)) : Except StatementError Row :=
  match values.find? fun (name, _) => !t.columns.any (·.name == name) with
  | some (name, _) => .error (.notAColumnOf t.name name)
  | none => .ok <| t.columns.map fun column =>
      column.affinity.convert ((values.lookup column.name).getD .null)

/-- Adds a row at the end. -/
def insert (t : Table) (values : List (String × Cell)) : Except StatementError Table := do
  let r ← t.rowOf values
  t.checkValues r
  if t.rows.any fun s => t.keyOf s == t.keyOf r then throw (.duplicateKey t.title.text t.keyNames)
  return { t with rows := t.rows ++ [r] }

/-- Adds a row at the end and takes out the one that has the same key. -/
def replace (t : Table) (values : List (String × Cell)) : Except StatementError Table := do
  let r ← t.rowOf values
  t.checkValues r
  return { t with rows := t.rows.filter (fun s => t.keyOf s != t.keyOf r) ++ [r] }

/-- A row with new values in some columns. -/
def assign (sets : List (Nat × Cell)) (r : Row) : Row :=
  sets.foldl (fun r (i, c) => r.set i c) r

/-- Changes the rows that satisfy the conditions, and counts them. Only a change in a column of the
key can make two keys agree. -/
def update (t : Table) (sets : List (String × Cell)) (conditions : List Condition) :
    Except StatementError (Table × Nat) := do
  let sets ← sets.mapM fun (name, c) => do
    let i ← t.position name
    return (i, t.convertAt i c)
  let conditions ← conditions.mapM t.locate
  let chosen := t.rows.filter (satisfies conditions)
  chosen.forM fun r => t.checkValues (assign sets r)
  let rows := t.rows.map fun r => if satisfies conditions r then assign sets r else r
  if sets.any fun (i, _) => t.key.contains i then t.checkKeys rows
  return ({ t with rows := rows }, chosen.length)

/-- The rows that satisfy the conditions, cut down to the given columns, in their order. -/
def select (t : Table) (columns : List String) (conditions : List Condition) :
    Except StatementError (List Row) := do
  let places ← columns.mapM t.position
  let conditions ← conditions.mapM t.locate
  return (t.rows.filter (satisfies conditions)).map fun r => places.map r.cell

/-- The same rows in the order of a column; rows that agree there keep their order. -/
def selectOrdered (t : Table) (columns : List String) (conditions : List Condition)
    (order : String) : Except StatementError (List Row) := do
  let places ← columns.mapM t.position
  let conditions ← conditions.mapM t.locate
  let i ← t.position order
  let rows := (t.rows.filter (satisfies conditions)).mergeSort fun r s => (r.cell i).le (s.cell i)
  return rows.map fun r => places.map r.cell

end Table

namespace Database

/-- The table of a name. -/
def table? (db : Database) (name : String) : Option Table :=
  db.tables.find? (·.name == name)

/-- The view of a name. -/
def view? (db : Database) (name : String) : Option View :=
  db.schema.views.find? (·.name == name)

/-- Whether there is a table or a view of a name. -/
def named (db : Database) (name : String) : Bool :=
  (db.table? name).isSome || (db.view? name).isSome

/-- The table of a name, as one whose rows may be changed; those of a view may not. -/
def table (db : Database) (name : String) : Except StatementError Table :=
  match db.table? name, db.view? name with
  | some t, _ => .ok t
  | none, some v => .error (.notModifiable v.title.text)
  | none, none => .error (.noSuchTable name)

/-- What is to be seen under a name, be it the one of a table or of a view. -/
def shown (db : Database) (name : String) : Except StatementError Table :=
  match db.table? name, db.view? name with
  | some t, _ => .ok t
  | none, some v => v.shown db.tables
  | none, none => .error (.noSuchTable name)

/-- Puts a table in the place of the one of its name. -/
def withTable (db : Database) (t : Table) : Database :=
  { db with schema.tables := db.tables.map fun s => if s.name == t.name then t else s }

/-- Puts a table behind the others. -/
def pushTable (db : Database) (t : Table) : Database :=
  { db with schema.tables := db.tables ++ [t] }

/-- Puts an index behind the others. -/
def pushIndex (db : Database) (title : Identifier) : Database :=
  { db with schema.indexes := db.schema.indexes ++ [title] }

/-- Adds a row to a table. -/
def insert (db : Database) (name : String) (values : List (String × Cell)) :
    Except StatementError Database := do
  let t ← db.table name
  return db.withTable (← t.insert values)

/-- Adds a row to a table, in the place of the one that has the same key. -/
def replace (db : Database) (name : String) (values : List (String × Cell)) :
    Except StatementError Database := do
  let t ← db.table name
  return db.withTable (← t.replace values)

/-- Changes rows of a table, and counts them. -/
def update (db : Database) (name : String) (sets : List (String × Cell))
    (conditions : List Condition) : Except StatementError (Database × Nat) := do
  let t ← db.table name
  let (t, count) ← t.update sets conditions
  return (db.withTable t, count)

/-- Rows of a table or a view. -/
def select (db : Database) (name : String) (columns : List String) (conditions : List Condition) :
    Except StatementError (List Row) := do
  let t ← db.shown name
  t.select columns conditions

/-- Rows of a table or a view in the order of a column. -/
def selectOrdered (db : Database) (name : String) (columns : List String)
    (conditions : List Condition) (order : String) : Except StatementError (List Row) := do
  let t ← db.shown name
  t.selectOrdered columns conditions order

end Database

end Quotation.Store
