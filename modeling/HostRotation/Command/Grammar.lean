import HostRotation.Command.Usage
import HostRotation.Text.Numeral

namespace HostRotation.Command

inductive Arity where
  | switch
  | single
  | repeatable
  deriving DecidableEq, Repr

/-- An option: the name under which it is kept, the names under which it is given, and which values
it takes, with the reason why it does not take others. -/
structure OptionRule where
  key : String
  names : List String
  arity : Arity := .single
  accepts : String → Except String Unit := fun _ => .ok ()

structure Grammar where
  options : List OptionRule
  positionals : List String := []
  commands : List String := []

/-- What was read of the arguments so far. -/
structure Reading where
  help : Bool := false
  optionsEnded : Bool := false
  given : List (String × String) := []
  positionals : List String := []
  command : Option (String × List String) := none
  deriving DecidableEq, Repr

namespace Reading

def has (r : Reading) (key : String) : Bool :=
  r.given.any (·.1 = key)

def values (r : Reading) (key : String) : List String :=
  (r.given.filter (·.1 = key)).map (·.2)

def value? (r : Reading) (key : String) : Option String :=
  r.given.lookup key

def give (r : Reading) (key value : String) : Reading :=
  { r with given := r.given ++ [(key, value)] }

end Reading

def isHelp (argument : String) : Bool :=
  argument = "--help" || argument = "help"

def startsWithDash (argument : String) : Bool :=
  argument.toList.head? = some '-'

namespace Grammar

def option? (g : Grammar) (name : String) : Option OptionRule :=
  g.options.find? (·.names.contains name)

def take (r : Reading) (o : OptionRule) (name value : String) : Except UsageError Reading :=
  if o.arity = .single ∧ r.has o.key then
    .error (.badValue name value "duplicate values provided")
  else
    match o.accepts value with
    | .error reason => .error (.badValue name value reason)
    | .ok () => .ok (r.give o.key value)

def takePlain (g : Grammar) (r : Reading) (argument : String) (rest : List String) :
    Except UsageError Reading :=
  if g.commands.contains argument then .ok { r with command := some (argument, rest) }
  else if r.positionals.length < g.positionals.length then
    .ok { r with positionals := r.positionals ++ [argument] }
  else .error (.unrecognized argument)

/-- Reads arguments up to their end or the first subcommand. -/
def read (g : Grammar) (r : Reading) : List String → Except UsageError Reading
  | [] => .ok r
  | argument :: rest =>
    if r.command.isSome then .ok r
    else if !r.optionsEnded && isHelp argument then g.read { r with help := true } rest
    else if !r.optionsEnded && startsWithDash argument then
      if argument = "--" then g.read { r with optionsEnded := true } rest
      else if r.help then .error .optionAfterHelp
      else
        match g.option? argument with
        | none => .error (.unrecognized argument)
        | some o =>
          if o.arity = .switch then g.read (r.give o.key "") rest
          else
            match rest with
            | [] => .error (.noValue argument)
            | value :: rest => do g.read (← take r o argument value) rest
    else do g.read (← g.takePlain r argument rest) rest

end Grammar

def numeralValue {α : Type} (read : String → Except Text.NumeralFault α) (value : String) :
    Except String Unit :=
  match read value with
  | .ok _ => .ok ()
  | .error fault => .error fault.message

end HostRotation.Command
