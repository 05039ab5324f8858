import Quotation.FileError
import Quotation.Files.Path
import Quotation.Store.Table

/-!
# Files

The files that this program sees: directories, files of bytes, and databases.

* `Files`, with the directory in which relative paths begin;
* `Files.locate`: where a path leads, following it part by part;
* `Files.readBytes`, `Files.writeBytes`, `Files.remove`, `Files.makeParents`.
-/

namespace Quotation

/-- What a file holds. -/
inductive FileContent
  | bytes (bs : List UInt8)
  | database (db : Store.Database)
  deriving Repr

/-- The place of a file or a directory: the names that lead to it from the root. -/
abbrev Location := List String

/-- Directories and files. Their names are texts here, and each has one place: names of other bytes,
links from one place to another, and the rights to read and write are left out. -/
structure Files where
  workingDirectory : Location
  directories : List Location := []
  entries : List (Location × FileContent) := []
  deriving Repr

/-- Where a path leads. -/
inductive Target
  | directory (place : Location)
  | file (place : Location) (content : FileContent)
  /-- Nothing is there, but the directory that would hold it is. -/
  | vacant (place : Location)
  deriving Repr

namespace Files

/-- Whether a place is that of a directory. The working directory and those above it always are. -/
def isDirectory (fs : Files) (place : Location) : Bool :=
  place.isPrefixOf fs.workingDirectory || fs.directories.contains place

/-- Follows the parts of a path from a directory on. -/
def follow (fs : Files) (here : Location) : List String → Except FileError Target
  | [] => .ok (.directory here)
  | part :: rest =>
    if !Path.isStep part then follow fs here rest
    else if part = ".." then follow fs here.dropLast rest
    else if fs.isDirectory (here ++ [part]) then follow fs (here ++ [part]) rest
    else match fs.entries.lookup (here ++ [part]) with
      | some content =>
        if rest = [] then .ok (.file (here ++ [part]) content) else .error .notDirectory
      | none => if rest = [] then .ok (.vacant (here ++ [part])) else .error .notFound

/-- The directory in which a path begins. -/
def origin (fs : Files) (path : String) : Location :=
  if Path.isAbsolute path then [] else fs.workingDirectory

/-- Where a path leads. The empty path leads nowhere. -/
def locate (fs : Files) (path : String) : Except FileError Target :=
  if path = "" then .error .notFound else fs.follow (fs.origin path) (Path.parts path)

/-- A relative path is followed from the working directory on. -/
theorem locate_of_relative {fs : Files} {path : String} {parts : List String} (hpath : path ≠ "")
    (hrelative : Path.isAbsolute path = false) (hparts : Path.parts path = parts) :
    fs.locate path = fs.follow fs.workingDirectory parts := by
  rw [locate, if_neg hpath, origin, hrelative, hparts]
  rfl

/-- The bytes of a file. A database is read as no bytes: this program does not read the files of its
databases as bytes, and the form of those is not the one that they have here. -/
def readBytes (fs : Files) (path : String) : Except FileError (List UInt8) := do
  match ← fs.locate path with
  | .directory _ => throw .isDirectory
  | .vacant _ => throw .notFound
  | .file _ (.bytes bs) => return bs
  | .file _ (.database _) => return []

/-- Puts a content at a place. -/
def put (fs : Files) (place : Location) (content : FileContent) : Files :=
  { fs with entries := (place, content) :: fs.entries.filter fun e => e.1 ≠ place }

/-- Makes the directories that the parts of a path lead through, as far as they are missing. -/
def makeDirectoriesFrom (fs : Files) (here : Location) : List String → Except FileError Files
  | [] => .ok fs
  | part :: rest =>
    if !Path.isStep part then makeDirectoriesFrom fs here rest
    else if part = ".." then makeDirectoriesFrom fs here.dropLast rest
    else if fs.isDirectory (here ++ [part]) then makeDirectoriesFrom fs (here ++ [part]) rest
    else if (fs.entries.lookup (here ++ [part])).isSome then
      .error (if rest.any Path.isStep then .notDirectory else .alreadyThere)
    else makeDirectoriesFrom { fs with directories := (here ++ [part]) :: fs.directories }
      (here ++ [part]) rest

/-- Makes the directories on the way to a file. -/
def makeParents (fs : Files) (path : String) : Except FileError Files :=
  fs.makeDirectoriesFrom (fs.origin path) (Path.parts path).dropLast

/-- Writes a file into a directory that is there. -/
def writeBytes (fs : Files) (path : String) (bs : List UInt8) : Except FileError Files := do
  match ← fs.locate path with
  | .directory _ => throw .isDirectory
  | .vacant place => return fs.put place (.bytes bs)
  | .file place _ => return fs.put place (.bytes bs)

/-- Takes a file away. -/
def remove (fs : Files) (path : String) : Except FileError Files := do
  match ← fs.locate path with
  | .directory _ => throw .isDirectory
  | .vacant _ => throw .notFound
  | .file place _ => return { fs with entries := fs.entries.filter fun e => e.1 ≠ place }

end Files

end Quotation
