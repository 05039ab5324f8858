import Std.Time.DateTime.Timestamp
import Quotation.CommandLine.Run
import Quotation.Store.Archive

/-!
# The program

Reads the one file that a command is about, carries the command out, and writes the file if it has
changed.
-/

namespace Quotation.Program

/-- The variables that the program looks at. -/
def variableNames : List String :=
  ["PARLEY_DB", "PARLEY_LOCAL_UUID", "PARLEY_THUMBNAIL_MAX_DIM", "HOME", "XDG_DATA_HOME"]

/-- The values of the variables that are set. -/
def readVariables : IO (List (String × String)) :=
  variableNames.filterMapM fun name => do
    return (← IO.getEnv name).map (name, ·)

/-- A new name, of the random kind. -/
def freshId : IO MessageId := do
  let bytes := (← IO.getRandomBytes 16).toList
  let marked := bytes.zipIdx.map fun (b, i) =>
    if i = 6 then (b &&& 0x0F) ||| 0x40 else if i = 8 then (b &&& 0x3F) ||| 0x80 else b
  return ⟨(Uuid.ofList? marked).getD ⟨Vector.replicate 16 0⟩⟩

/-- The time and a new name. -/
def moment : IO CommandLine.Moment := do
  let now ← Std.Time.Timestamp.now
  return ⟨← freshId, UInt64.ofNat now.toMillisecondsSinceUnixEpoch.val.toNat⟩

/-- The path of the file that arguments are about. -/
def databasePath? (value? : String → Option String) (arguments : List String) : Option String :=
  match CommandLine.Invocation.ofArguments (value? "PARLEY_DB") arguments with
  | .ok invocation => invocation.database.or
      ((Path.dataDirectory? (value? "HOME") (value? "XDG_DATA_HOME")).map Path.database)
  | .error _ => none

/-- What is at a path: a file that can be read, nothing, or a directory. -/
def look (path : String) : IO (Option (Option FileContent)) := do
  match ← (IO.FS.readBinFile path).toBaseIO with
  | .ok bytes => return some (some (.ofBytes bytes.toList))
  | .error (.noFileOrDirectory ..) => return some none
  | .error _ => return none

/-- The files on the way to a path, as far as they are there. -/
def readFiles (workingDirectory : Location) (path : String) : IO Files := do
  let start : Files := { workingDirectory }
  let parts := Path.parts path
  let places := (List.range (parts.length + 1)).map fun n => "/".intercalate (parts.take n)
  places.foldlM (fun fs place => do
    match fs.locate place with
    | .ok (.vacant location) =>
      match ← look place with
      | some (some content) => return fs.put location content
      | some none => return fs
      | none => return { fs with directories := location :: fs.directories }
    | _ => return fs) start

/-- Makes the directories and writes the databases that are there after a command. -/
def writeFiles (before after : Files) : IO Unit := do
  for location in after.directories.reverse do
    if !before.directories.contains location then
      IO.FS.createDir ("/" ++ "/".intercalate location)
  for (location, content) in after.entries do
    let bytes := content.toBytes
    if (before.entries.lookup location).map FileContent.toBytes != some bytes then
      IO.FS.writeBinFile ("/" ++ "/".intercalate location) ⟨bytes.toArray⟩

/-- Carries out what the arguments say. -/
def run (arguments : List String) : IO UInt32 := do
  let settings ← readVariables
  let value? (name : String) : Option String := settings.lookup name
  let here := (Path.parts (← IO.currentDir).toString).filter Path.isStep
  let files ← match databasePath? value? arguments with
    | some path => readFiles here path
    | none => pure { workingDirectory := here }
  let (after, outcome) := CommandLine.run files value? (← moment) arguments
  writeFiles files after
  IO.print outcome.output
  if let some error := outcome.error then IO.eprintln error
  return UInt32.ofNat outcome.status

end Quotation.Program

/-- The program. -/
def main (arguments : List String) : IO UInt32 :=
  Quotation.Program.run arguments
