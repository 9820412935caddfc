import HostRotation.CheckMethod
import HostRotation.Config.Error

namespace HostRotation

/-- Every candidate of one selection was dead or excluded. Holds the whole host list, the timeout in
milliseconds and the method of the configuration. -/
structure NoLiveHost where
  hosts : List String
  timeout : UInt64
  method : CheckMethod
  deriving DecidableEq, Repr

def NoLiveHost.message (e : NoLiveHost) : String :=
  "No live host was found among: '" ++ String.intercalate ", " e.hosts ++ "' with timeout: '"
    ++ Text.numeral e.timeout.toNat ++ "' and check method: '" ++ e.method.name ++ "'"

inductive Fault where
  | config (e : ConfigError)
  | noLiveHost (e : NoLiveHost)
  deriving DecidableEq, Repr

def Fault.message : Fault → String
  | .config e => "Invalid config: " ++ e.message
  | .noLiveHost e => e.message

def Fault.isRetryable : Fault → Bool
  | .config _ => false
  | .noLiveHost _ => true

end HostRotation
