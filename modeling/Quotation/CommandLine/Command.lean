import Quotation.CommandLine.Arguments
import Quotation.Identity
import Quotation.Wire.Cipher

/-!
# Commands

What the program can be told to do.

* `Command`: showing a quote, showing the quote in a reply, showing a quote as it is sent, and
  asking for a message again;
* `Invocation.ofArguments`: the command that arguments give, with the path of the database.
-/

namespace Quotation.CommandLine

/-- A command. -/
inductive Command
  | quote (id : MessageId)
  | quoteReply (id : MessageId)
  | serialize (id : MessageId)
  | resend (thread : ThreadId) (source : Address) (device : UInt32) (timestamp : UInt64)
      (contentHex : String) (cipher : Cipher)
  deriving DecidableEq, Repr

/-- A command, and the path of the database that it is about; without one it is the user's. -/
structure Invocation where
  database : Option String
  command : Command
  deriving DecidableEq, Repr

/-- A number below a bound, possibly behind a sign; only zero may have a minus. -/
def readSigned? (bound : Nat) (s : String) : Option Nat :=
  match s.toList with
  | '-' :: digits => (Text.readNat? digits).filter (· = 0)
  | _ => Text.readBounded? bound s

/-- The option that names the database; its path is not empty. -/
def databaseOption : String × (String → Bool) := ("db", fun path => path != "")

/-- The arguments of a command about one message. -/
def messageLevel : Level :=
  [databaseOption, ("", fun s => (MessageId.read s).isOk)]

/-- The arguments of a command that asks for a message again. -/
def resendLevel : Level :=
  [databaseOption, ("thread", fun s => (ThreadId.read s).isOk),
    ("source", fun s => (Address.read s).isOk),
    ("device", fun s => (readSigned? UInt32.size s).isSome),
    ("timestamp", fun s => (Text.readBounded? UInt64.size s).isSome),
    ("content-hex", fun _ => true),
    ("cipher-type", fun s => (readSigned? UInt8.size s).isSome)]

/-- The names of the options of a level. -/
def Level.options (level : Level) : List String :=
  (level.map (·.1)).filter (· ≠ "")

/-- A message from the values that were found. -/
def readMessageId (found : List (String × String)) : Except Refusal MessageId :=
  match found.lookup "" with
  | some s => (MessageId.read s).mapError fun _ => .usage
  | none => .error .usage

/-- A resend command from the values that were found, all of which have to be there. -/
def readResend? (found : List (String × String)) : Option Command := do
  let thread ← (ThreadId.read (← found.lookup "thread")).toOption
  let source ← (Address.read (← found.lookup "source")).toOption
  let device ← readSigned? UInt32.size (← found.lookup "device")
  let timestamp ← Text.readBounded? UInt64.size (← found.lookup "timestamp")
  let contentHex ← found.lookup "content-hex"
  let cipher ← readSigned? UInt8.size (← found.lookup "cipher-type")
  return .resend thread source (.ofNat device) (.ofNat timestamp) contentHex ⟨.ofNat cipher⟩

/-- The values among the arguments of a command. -/
def valuesOf (level : Level) (arguments : List String) :
    Except Refusal (List (String × String)) :=
  level.collect [] (Item.ofArguments level.options arguments)

/-- The command of a name with its arguments, and the path that stands among them. -/
def Command.ofArguments (name : String) (arguments : List String) :
    Except Refusal (Command × Option String) :=
  if name = "quote" then do
    let found ← valuesOf messageLevel arguments
    return (.quote (← readMessageId found), found.lookup "db")
  else if name = "quote-reply" then do
    let found ← valuesOf messageLevel arguments
    return (.quoteReply (← readMessageId found), found.lookup "db")
  else if name = "serialize" then do
    let found ← valuesOf messageLevel arguments
    return (.serialize (← readMessageId found), found.lookup "db")
  else if name = "resend" then do
    let found ← valuesOf resendLevel arguments
    match readResend? found with
    | some command => return (command, found.lookup "db")
    | none => throw .usage
  else throw .usage

/-- The names of the commands. -/
def commandNames : List String := ["quote", "quote-reply", "serialize", "resend", "help"]

/-- The call for help, on all commands or on one of them. -/
def helpOn (arguments : List String) : Refusal :=
  match arguments with
  | [] => .help
  | [name] => if commandNames.contains name then .help else .usage
  | _ :: _ :: _ => .usage

/-- The path in front of the name of a command, that name, and the arguments behind it. -/
def readFront (database : Option String) :
    List Item → Except Refusal (Option String × String × List String)
  | .option _ path :: rest =>
    if path = "" ∨ database.isSome then .error .usage else readFront (some path) rest
  | .value name behind :: _ => .ok (database, name, behind)
  | .help :: _ => .error .help
  | _ => .error .usage

/-- The path of the database: the one among the arguments of the command, else the one in front of
its name, else the one in a variable, which is read only where no argument takes its place and then
must not be empty. -/
def choosePath (inner outer preset : Option String) : Except Refusal (Option String) :=
  if preset = some "" ∧ ¬(inner.isSome ∧ outer.isSome) then .error .usage
  else .ok ((inner.or outer).or preset)

namespace Invocation

/-- The command that arguments give, with the path of the database that a variable may give. -/
def ofArguments (preset : Option String) (arguments : List String) :
    Except Refusal Invocation := do
  let (outer, name, behind) ← readFront none (Item.ofArguments ["db"] arguments)
  if name = "help" then throw (helpOn behind)
  let (command, inner) ← Command.ofArguments name behind
  return ⟨← choosePath inner outer preset, command⟩

end Invocation

end Quotation.CommandLine
