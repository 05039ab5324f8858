import Quotation.Text.Lossy

/-!
# Paths

Paths are texts whose parts stand between strokes. What the system takes for a path may be any
bytes.

* `RawPath`, with the text that it is kept as;
* `Path.parts`, `Path.join`, `Path.isAbsolute`;
* `Path.fileName?`, `Path.extension?`;
* `Path.dataDirectory?`, `Path.database`: where the database of a user lies.
-/

namespace Quotation

/-- A path as the system takes it. -/
structure RawPath where
  bytes : List UInt8
  deriving DecidableEq, Repr

namespace RawPath

/-- The path that a text is. -/
def ofText (path : String) : RawPath :=
  ⟨path.toByteArray.data.toList⟩

instance : Coe String RawPath := ⟨ofText⟩

/-- The text that a path is kept as. -/
def text (path : RawPath) : String :=
  Text.lossy path.bytes

end RawPath

namespace Path

/-- The parts of a path. Empty ones come from strokes at the ends or beside each other. -/
def parts (path : String) : List String :=
  (path.toList.splitOn '/').map String.ofList

/-- Whether a path begins at the root of all paths. -/
def isAbsolute (path : String) : Bool :=
  path.startsWith "/"

/-- A path below a directory. -/
def join (directory path : String) : String :=
  if directory.endsWith "/" then directory ++ path else directory ++ "/" ++ path

/-- Whether a part leads to another place. -/
def isStep (part : String) : Bool :=
  part != "" && part != "."

/-- The last part of a path that leads somewhere; there is none if it leads upwards. -/
def fileName? (path : String) : Option String :=
  ((parts path).filter isStep).getLast?.filter (· ≠ "..")

/-- The characters behind the last point in the name of a file. A point at the beginning of the name
does not count. -/
def extension? (path : String) : Option String := do
  let letters := (← fileName? path).toList
  let last := (letters.reverse.takeWhile (· ≠ '.')).reverse
  if last.length + 1 < letters.length then some (String.ofList last) else none

/-- The directory in which programs keep the data of a user: the one that is set apart for that, if
its path is absolute, and else one below the home of the user. -/
def dataDirectory? (home setApart : Option String) : Option String :=
  (setApart.filter isAbsolute).or (home.map fun h => join (join h ".local") "share")

/-- The path of the database below the directory for data. -/
def database (dataDirectory : String) : String :=
  join (join dataDirectory "parley") "parley.db"

end Path

end Quotation
