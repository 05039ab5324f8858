import Quotation.CommandLine.Command
import Quotation.Quote.Display
import Quotation.Quote.Sending
import Quotation.Resend
import Quotation.Store.Handle

/-!
# Running a command

* `Command.run`: what a command does to a database and what it prints;
* `run`: the same from arguments and variables to files, with the status that the program ends with;
* `report`: an error and what is behind it, as it is shown.
-/

namespace Quotation.CommandLine

/-- What is left when the program ends: its status, what it has printed, and the error that ended
it. -/
structure Outcome where
  status : Nat
  output : String
  error : Option String
  deriving DecidableEq, Repr

/-- What a command takes from its surroundings: a new name, and the time in milliseconds. -/
structure Moment where
  freshId : MessageId
  millisecond : UInt64
  deriving DecidableEq, Repr

/-- The time as an instant. -/
def Moment.instant (m : Moment) : Instant :=
  .ofMillisecond m.millisecond

/-- Lines behind the first one, moved in. -/
def indentFollowing (margin text : String) : String :=
  ("\n" ++ margin).intercalate (text.splitOn "\n")

/-- The lines that show what is behind an error; they are numbered if there are several. -/
def reportCauses : List String → List String
  | [] => []
  | [cause] => ["    " ++ indentFollowing "    " cause]
  | causes => causes.zipIdx.map fun (cause, i) =>
      let digits := toString i
      String.ofList (List.replicate (5 - digits.length) ' ') ++ digits ++ ": " ++
        indentFollowing "       " cause

/-- An error and what is behind it, as it is shown. -/
def report (messages : List String) : String :=
  match messages with
  | [] => "Error: "
  | [message] => "Error: " ++ message
  | message :: causes =>
    "Error: " ++ message ++ "\n\nCaused by:\n" ++ "\n".intercalate (reportCauses causes)

/-- An error by its sentence and those behind it. -/
abbrev Failure := List String

/-- The failure of a quote. -/
def ofQuoteError {α : Type} (r : Except QuoteError α) : Except Failure α :=
  r.mapError (·.messages)

/-- The quote that a kept reply carries. -/
def quoteOfReply (config : Config) (look : Lookup) (id : MessageId) : Except Failure Snapshot :=
  match look.message id with
  | .error e => .error e.messages
  | .ok none => .error ["message " ++ id.text ++ " not found"]
  | .ok (some m) =>
    match m.quoted with
    | none => .error ["message " ++ id.text ++ " is not a reply"]
    | some r => ofQuoteError (Snapshot.ofRecord config look r)

/-- A value over several lines, and the end of the last one. -/
def shown (j : Json) : String := j.pretty ++ "\n"

/-- What a command leaves behind in a database, and what it prints. A command that fails leaves
everything as it was. -/
def Command.run (config : Config) (moment : Moment) (db : Store.Database) :
    Command → Except Failure (Store.Database × String)
  | quote id =>
    (ofQuoteError (Snapshot.ofMessage db.lookup id)).map fun s => (db, shown s.json)
  | quoteReply id => (quoteOfReply config db.lookup id).map fun s => (db, shown s.json)
  | serialize id =>
    (ofQuoteError (Snapshot.ofMessage db.lookup id)).map fun s =>
      (db, shown (WireQuote.json.encode s.wire))
  | resend thread source device timestamp contentHex cipher =>
    match Text.Hex.decode (Text.trim contentHex) with
    | .error e => .error ["decoding --content-hex", e.message]
    | .ok content =>
      let envelope : Envelope := ⟨source, device, timestamp, content⟩
      (ofQuoteError (envelope.enqueue cipher thread (.begin db) moment.freshId moment.millisecond
        moment.instant)).map fun tx => (tx.commit, moment.freshId.text ++ "\n")

/-- Opens the database that a command is about. -/
def openDatabase (fs : Files) (setting? : String → Option String) (path : Option String) :
    Except Failure (Files × Store.Handle) :=
  match path with
  | some path =>
    (Store.Handle.ofPath fs path).mapError fun e => ("opening database at " ++ path) :: e.messages
  | none =>
    (Store.Handle.ofDefault fs (setting? "HOME") (setting? "XDG_DATA_HOME")).mapError fun e =>
      "opening default database" :: e.messages

/-- The files after that database could not be opened. -/
def leftByOpening (fs : Files) (setting? : String → Option String) (path : Option String) : Files :=
  match path with
  | some path => Store.Handle.leftBy fs path
  | none => Store.Handle.leftByDefault fs (setting? "HOME") (setting? "XDG_DATA_HOME")

/-- Carries out a command. -/
def Invocation.run (fs : Files) (setting? : String → Option String) (moment : Moment)
    (i : Invocation) : Files × Outcome :=
  match openDatabase fs setting? i.database with
  | .error failure =>
    (leftByOpening fs setting? i.database, ⟨1, "", some (report failure)⟩)
  | .ok (fs, handle) =>
    match i.command.run (.ofVariables setting?) moment (handle.current fs) with
    | .error failure => (fs, ⟨1, "", some (report failure)⟩)
    | .ok (db, output) => ((handle.save fs db).1, ⟨0, output, none⟩)

/-- How the program is called. -/
def usage : String :=
  "\n".intercalate
    ["Resolve quoted replies and queue resend requests", "",
      "Usage: parley [OPTIONS] <COMMAND>", "", "Commands:",
      "  quote        Print the quote snapshot for a stored message",
      "  quote-reply  Print the quote carried by a stored reply",
      "  serialize    Print the wire quote for a stored message",
      "  resend       Queue a resend request for an undecryptable envelope",
      "  help         Print this message", "", "Options:",
      "      --db <DB>  Database file", "  -h, --help     Print help", ""]

/-- What the program does with its arguments. -/
def run (fs : Files) (setting? : String → Option String) (moment : Moment)
    (arguments : List String) : Files × Outcome :=
  match Invocation.ofArguments (setting? "PARLEY_DB") arguments with
  | .error .help => (fs, ⟨0, usage, none⟩)
  | .error .usage => (fs, ⟨2, "", none⟩)
  | .ok invocation => invocation.run fs setting? moment

end Quotation.CommandLine
