import HostRotation.Command.Grammar
import HostRotation.Config.Basic

namespace HostRotation.Command

structure SelectArgs where
  config : Option String := none
  properties : List String := []
  profile : String := "default"
  exclude : Option String := none
  count : UInt32 := 1
  metrics : Bool := false
  deriving DecidableEq, Repr

structure ProbeArgs where
  host : String
  method : String := "roundRobinSocket"
  timeout : UInt64 := Config.defaultTimeout
  port : UInt16 := Config.defaultPort
  deriving DecidableEq, Repr

inductive Invocation where
  | help (page : Page)
  | select (args : SelectArgs)
  | probe (args : ProbeArgs)
  deriving DecidableEq, Repr

namespace SelectArgs

def grammar : Grammar where
  options := [
    { key := "config", names := ["-c", "--config"] },
    { key := "property", names := ["-p", "--property"], arity := .repeatable },
    { key := "profile", names := ["--profile"] },
    { key := "exclude", names := ["--exclude"] },
    { key := "count", names := ["-n", "--count"], accepts := numeralValue Text.readUInt32 },
    { key := "metrics", names := ["--metrics"], arity := .switch }]

def ofReading (r : Reading) : SelectArgs where
  config := r.value? "config"
  properties := r.values "property"
  profile := (r.value? "profile").getD "default"
  exclude := r.value? "exclude"
  count := ((r.value? "count").bind fun v => (Text.readUInt32 v).toOption).getD 1
  metrics := r.has "metrics"

end SelectArgs

namespace ProbeArgs

def grammar : Grammar where
  options := [
    { key := "method", names := ["-m", "--method"] },
    { key := "timeout", names := ["-t", "--timeout"], accepts := numeralValue Text.readUInt64 },
    { key := "port", names := ["--port"], accepts := numeralValue Text.readUInt16 }]
  positionals := ["host"]

def ofReading (host : String) (r : Reading) : ProbeArgs where
  host
  method := (r.value? "method").getD "roundRobinSocket"
  timeout :=
    ((r.value? "timeout").bind fun v => (Text.readUInt64 v).toOption).getD Config.defaultTimeout
  port := ((r.value? "port").bind fun v => (Text.readUInt16 v).toOption).getD Config.defaultPort

end ProbeArgs

namespace Invocation

def grammar : Grammar where
  options := []
  commands := ["select", "probe"]

def ofSelect (args : List String) : Except UsageError Invocation := do
  let r ← SelectArgs.grammar.read {} args
  return if r.help then .help .select else .select (.ofReading r)

def ofProbe (args : List String) : Except UsageError Invocation := do
  let r ← ProbeArgs.grammar.read {} args
  if r.help then return .help .probe
  else
    match r.positionals with
    | host :: _ => return .probe (.ofReading host r)
    | [] => .error (.missingArguments ProbeArgs.grammar.positionals)

/-- What a list of arguments asks for. A request for help before the subcommand is handed on to
it. -/
def ofArguments (args : List String) : Except UsageError Invocation := do
  let r ← grammar.read {} args
  match r.command with
  | some (command, rest) =>
    let rest := if r.help then "help" :: rest else rest
    if command = "select" then ofSelect rest else ofProbe rest
  | none =>
    if r.help then return .help .overview
    else .error (.missingCommand ("help" :: grammar.commands))

end Invocation
end HostRotation.Command
