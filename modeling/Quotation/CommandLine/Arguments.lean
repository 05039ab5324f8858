/-!
# Arguments

The arguments of a command are options, which have a name and a value, and plain values. They are
looked at one behind the other, and the first one that is at fault, or that asks for help, decides.

* `Item.ofArguments`: what the arguments are;
* `Level`, `Level.collect`: the values under their names, each name at most once.
-/

namespace Quotation.CommandLine

/-- Why a command is not carried out: its arguments are wrong, or it asks for help. -/
inductive Refusal
  | usage
  | help
  deriving DecidableEq, Repr

/-- What an argument is. -/
inductive Item
  | option (name value : String)
  /-- A plain value, with all arguments behind it. -/
  | value (text : String) (behind : List String)
  /-- A plain value behind the mark that ends all options. -/
  | trailing (text : String)
  | help
  | fault
  deriving DecidableEq, Repr

/-- The name of an option, and the value that is joined to it by an equals sign. -/
def splitOption (cs : List Char) : String × Option String :=
  let name := String.ofList (cs.takeWhile (· ≠ '='))
  match cs.dropWhile (· ≠ '=') with
  | [] => (name, none)
  | _ :: value => (name, some (String.ofList value))

/-- Whether an argument looks like an option, and so cannot be the value of one. -/
def looksLikeOption (argument : String) : Bool :=
  argument.startsWith "-" && argument != "-"

/-- What arguments are, for options of the given names. After a fault and a call for help nothing
counts. -/
def Item.ofArguments (names : List String) : List String → List Item
  | [] => []
  | argument :: rest =>
    match argument.toList with
    | ['-', '-'] => rest.map .trailing
    | '-' :: '-' :: cs =>
      match splitOption cs, rest with
      | (name, some joined), rest =>
        if names.contains name then .option name joined :: ofArguments names rest else [.fault]
      | (name, none), [] => if name = "help" then [.help] else [.fault]
      | (name, none), next :: rest =>
        if name = "help" then [.help]
        else if names.contains name && !looksLikeOption next then
          .option name next :: ofArguments names rest
        else [.fault]
    | ['-'] => .value argument rest :: ofArguments names rest
    | '-' :: c :: _ => if c = 'h' then [.help] else [.fault]
    | _ => .value argument rest :: ofArguments names rest

/-- The names that take a value, each with the test of what it may be. The empty name is that of a
plain value. -/
abbrev Level := List (String × (String → Bool))

namespace Level

/-- Adds a value under its name. -/
def put (level : Level) (found : List (String × String)) (name value : String) :
    Except Refusal (List (String × String)) :=
  match level.lookup name with
  | none => .error .usage
  | some isValid =>
    if (found.lookup name).isSome || !isValid value then .error .usage
    else .ok ((name, value) :: found)

/-- The values under their names. -/
def collect (level : Level) (found : List (String × String)) :
    List Item → Except Refusal (List (String × String))
  | [] => .ok found
  | .option name value :: rest =>
    (level.put found name value).bind fun found => collect level found rest
  | .value text _ :: rest => (level.put found "" text).bind fun found => collect level found rest
  | .trailing text :: rest => (level.put found "" text).bind fun found => collect level found rest
  | .help :: _ => .error .help
  | .fault :: _ => .error .usage

end Level

end Quotation.CommandLine
