import Quotation.FileError
import Quotation.Identity
import Quotation.Store.Cell

/-!
# Faults of the store

Why an operation of the store fails: the statement cannot be carried out, a value in a table is not
what it should be, a file cannot be read, or there is nothing to work on.

* `StatementError`, with the number and the words that name it;
* `ColumnFault`, `ColumnError`: faults of a value;
* `StoreError`.
-/

namespace Quotation.Store

/-- Why a statement cannot be carried out. -/
inductive StatementError
  | noSuchTable (table : String)
  | noSuchColumn (column : String)
  /-- A row is to be inserted with a column that the table does not have. -/
  | notAColumnOf (table column : String)
  /-- A row with the same key is there already. -/
  | duplicateKey (table : String) (columns : List String)
  /-- A column that has to hold something would hold nothing. -/
  | missingValue (table column : String)
  /-- Rows of a view are to be changed. -/
  | notModifiable (view : String)
  /-- An index is to be made of a view. -/
  | viewNotIndexed
  /-- A table is to be made with the name of an index. -/
  | indexNamed (name : String)
  /-- An index is to be made with the name of a table or a view. -/
  | tableNamed (name : String)
  | nestedTransaction
  | cannotOpen (path : String)
  | notADatabase
  deriving DecidableEq, Repr

namespace StatementError

/-- The full number of an error: the general one, and in its higher digits the special case. -/
def code : StatementError → Nat
  | noSuchTable _ => 1
  | noSuchColumn _ => 1
  | notAColumnOf _ _ => 1
  | duplicateKey _ _ => 1555
  | missingValue _ _ => 1299
  | notModifiable _ => 1
  | viewNotIndexed => 1
  | indexNamed _ => 1
  | tableNamed _ => 1
  | nestedTransaction => 1
  | cannotOpen _ => 14
  | notADatabase => 26

/-- The general number of an error, in words. -/
def summary (e : StatementError) : String :=
  if e.code = 1 then "SQL error or missing database"
  else if e.code = 14 then "Unable to open the database file"
  else if e.code = 26 then "File opened that is not a database file"
  else if e.code = 1299 then "A NOT NULL constraint failed"
  else "A PRIMARY KEY constraint failed"

/-- The sentence that names an error. -/
def message : StatementError → String
  | noSuchTable table => "no such table: " ++ table
  | noSuchColumn column => "no such column: " ++ column
  | notAColumnOf table column => "table " ++ table ++ " has no column named " ++ column
  | duplicateKey table columns =>
    "UNIQUE constraint failed: " ++ ", ".intercalate (columns.map fun c => table ++ "." ++ c)
  | missingValue table column => "NOT NULL constraint failed: " ++ table ++ "." ++ column
  | notModifiable view => "cannot modify " ++ view ++ " because it is a view"
  | viewNotIndexed => "views may not be indexed"
  | indexNamed name => "there is already an index named " ++ name
  | tableNamed name => "there is already a table named " ++ name
  | nestedTransaction => "cannot start a transaction within a transaction"
  | cannotOpen path => "unable to open database file: " ++ path
  | notADatabase => "file is not a database"

/-- The sentences that name an error and what is behind it. -/
def messages (e : StatementError) : List String :=
  [e.message, "Error code " ++ toString e.code ++ ": " ++ e.summary]

end StatementError

/-- Why a value of the right kind stands for nothing. -/
inductive ColumnFault
  | unknownDirection (text : String)
  | digestLength
  | unknownState
  | reference (e : ReferenceError)
  | hex (e : Text.Hex.Error)
  | uuid (e : Uuid.Error)
  | json
  | date
  | binary (e : Binary.DecodeError)
  deriving DecidableEq, Repr

/-- The sentences that name a fault and what is behind it. -/
def ColumnFault.messages : ColumnFault → List String
  | .unknownDirection text => ["unknown direction " ++ text]
  | .digestLength => ["digest must be 32 bytes"]
  | .unknownState => ["unknown pointer state"]
  | .reference (.hex e) => [(ReferenceError.hex e).message, e.message]
  | .reference e => [e.message]
  | .hex e => [e.message]
  | .uuid e => [e.message]
  | .json => ["the text is not the JSON of a value"]
  | .date => ["the text is not a date"]
  | .binary _ => ["the bytes are not the form of a message"]

/-- The sentence that names a fault. -/
def ColumnFault.message (f : ColumnFault) : String :=
  f.messages.headD ""

/-- What is wrong with a value in a column; columns count from zero. -/
inductive ColumnError
  /-- The value is of another kind. -/
  | wrongKind (column : Nat) (name : String) (kind : Cell.Kind)
  /-- The integer is too large or too small. -/
  | outOfRange (column : Nat) (value : Int)
  /-- The value is of the right kind but stands for nothing. -/
  | unreadable (column : Nat) (fault : ColumnFault)
  deriving DecidableEq, Repr

/-- The sentences that name an error and what is behind it. -/
def ColumnError.messages : ColumnError → List String
  | .wrongKind column name kind =>
    ["Invalid column type " ++ kind.name ++ " at index: " ++ toString column ++ ", name: " ++ name]
  | .outOfRange column value =>
    ["Integer " ++ toString value ++ " out of range at index " ++ toString column]
  | .unreadable column fault =>
    ("Conversion error from type Text at index: " ++ toString column ++ ", " ++ fault.message) ::
      fault.messages

/-- Why an operation of the store fails. -/
inductive StoreError
  | statement (e : StatementError)
  | column (e : ColumnError)
  | file (e : FileError)
  /-- There is no record of the given name. -/
  | notFound
  /-- There is no directory for the data of programs. -/
  | noDataDirectory
  /-- The tables cannot be set up. -/
  | migration (e : StatementError)
  deriving DecidableEq, Repr

namespace StoreError

/-- The sentences that name an error and what is behind it. -/
def messages : StoreError → List String
  | statement e => ("Database error: " ++ e.message) :: e.messages
  | column e => ("Database error: " ++ e.messages.headD "") :: e.messages
  | file e => ["IO error: " ++ e.message, e.message]
  | notFound => ["Record not found"]
  | noDataDirectory => ["Could not determine application data directory"]
  | migration e => ["Migration error: " ++ e.message]

/-- The sentence that names an error. -/
def message (e : StoreError) : String :=
  e.messages.headD ""

end StoreError

end Quotation.Store
