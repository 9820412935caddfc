import HostRotation.Command.Invocation
import HostRotation.Command.Output
import HostRotation.Config.Properties
import HostRotation.Properties.Layers
import HostRotation.Selection.Series

namespace HostRotation.Command

/-- What the command meets outside of the program. -/
structure Outside (m : Type → Type) extends Surroundings m where
  fileContent : String → m (Except String ByteArray)

variable {m : Type → Type} [Monad m]

def selectingEntry (a : SelectArgs) (c : Config) : Log.Entry :=
  { level := .debug
    source := .command
    message := "Selecting " ++ Text.numeral a.count.toNat ++ " host(s) for profile '" ++ a.profile
      ++ "' with method " ++ c.method.name }

/-- Selects hosts of a configuration, with cursors and counts of their own. -/
def selectHosts (outside : Outside m) (a : SelectArgs) (c : Config) : m Output := do
  let start ← outside.clock
  let request : Request := { config := c, profile := a.profile, exclude := a.exclude }
  let series ← ({} : Shared).selectUntil true (Request.probe outside.toSurroundings) request
    a.count.toNat
  let finish ← outside.clock
  return {
    lines := series.selected.map Selected.host
    snapshot :=
      if a.metrics then some (series.shared.tally.snapshot (UInt64.ofNat ((finish - start) / 1000)))
      else none
    entries := c.readEntry :: selectingEntry a c :: series.events.flatMap Event.entries
    ending :=
      match series.failure with
      | some e => .failed { cause := .fault (.noLiveHost e) }
      | none => .done }

def readConfigFile (outside : Outside m) (path : Option String) : m (Option ConfigFile) :=
  match path with
  | some path => do return some { path, content := ← outside.fileContent path }
  | none => pure none

def select (outside : Outside m) (a : SelectArgs) : m Output := do
  match Properties.ofLayers (← readConfigFile outside a.config) a.properties with
  | .error fault => return .refused fault.message
  | .ok properties =>
    match Config.ofProperties properties with
    | .error e => return { ending := .failed { cause := .fault (.config e) } }
    | .ok c => selectHosts outside a c

def unknownMethod (name : String) : String :=
  "Unknown method '" ++ name ++ "': expected one of "
    ++ String.intercalate ", " (CheckMethod.all.map CheckMethod.name)

def readMethod (name : String) : Except Failure CheckMethod :=
  match CheckMethod.ofName? name with
  | some method => .ok method
  | none => .error (.text (unknownMethod name))

def probeHost (outside : Outside m) (a : ProbeArgs) (method : CheckMethod) : m Output := do
  let check ← (Probe.ofMethod method a.port).check outside.toSurroundings a.host
    (.ofMillis a.timeout.toNat)
  match check.liveness with
  | .alive => return { lines := ["alive"], entries := check.entries }
  | .dead =>
    return {
      lines := ["dead"]
      entries := check.entries
      ending := .failed (.text ("Host '" ++ a.host ++ "' did not respond to " ++ method.name
        ++ " within " ++ Text.numeral a.timeout.toNat ++ "ms")) }

def probe (outside : Outside m) (a : ProbeArgs) : m Output :=
  if a.timeout = 0 then
    return .refused "Invalid timeout: must be a positive number of milliseconds"
  else
    match readMethod a.method with
    | .error failure => return { ending := .failed failure }
    | .ok method => probeHost outside a method

def run (outside : Outside m) (args : List String) : m Output :=
  match Invocation.ofArguments args with
  | .error e => return { ending := .misused e }
  | .ok (.help page) => return { lines := [page.text] }
  | .ok (.select a) => select outside a
  | .ok (.probe a) => probe outside a

end HostRotation.Command
