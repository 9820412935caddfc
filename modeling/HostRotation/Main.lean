import HostRotation.Command.Run
import Std.Async.DNS
import Std.Async.TCP
import Std.Async.Timer

namespace HostRotation.Main

open Std.Async
open Std.Net

/-- An error of the operating system is told with a capital first and its number last; the network
counts errors downwards from zero. -/
def numbered (code : UInt32) (details : String) : String :=
  details.capitalize ++ " (os error " ++ Text.numeral code.toInt32.toInt.natAbs ++ ")"

def reason : IO.Error → String
  | .otherError code details | .resourceBusy code details | .resourceVanished code details
  | .unsupportedOperation code details | .hardwareFault code details
  | .unsatisfiedConstraints code details | .illegalOperation code details
  | .protocolError code details | .timeExpired code details | .interrupted _ code details
  | .noFileOrDirectory _ code details | .alreadyExists _ code details
  | .invalidArgument _ code details | .permissionDenied _ code details
  | .resourceExhausted _ code details | .inappropriateType _ code details
  | .noSuchThing _ code details => numbered code details
  | .unexpectedEof => "unexpected end of file"
  | .userError text => text

def clock : IO Nat :=
  return (← IO.monoNanosNow) / 1000

def fileContent (path : String) : IO (Except String ByteArray) := do
  try
    return .ok (← IO.FS.readBinFile path)
  catch e =>
    return .error (reason e)

def endpoint (port : UInt16) : IPAddr → SocketAddress
  | .v4 addr => .v4 { addr, port }
  | .v6 addr => .v6 { addr, port }

def connectTo (address : SocketAddress) : Async Connection := do
  try
    (← TCP.Socket.Client.mk).connect address
    return .accepted
  catch e =>
    return .failed (reason e)

/-- Tries addresses in order until one of them accepts a connection; the last one that is tried
decides. -/
def connectToAny (start : Connection) : List SocketAddress → Async Connection
  | [] => return start
  | address :: rest => do
    match ← connectTo address with
    | .accepted => return .accepted
    | last => connectToAny last rest

def connectToHost (host : String) (port : UInt16) : Async Connection := do
  try
    let addresses ← DNS.getAddrInfo host ""
    connectToAny (.failed "could not resolve to any addresses")
      (addresses.toList.map (endpoint port))
  catch e =>
    return .failed ("failed to lookup address information: " ++ reason e)

/-- Waits for a time, at most a month. -/
def wait (limit : Timespan) : Async Unit :=
  sleep (.ofNat (min limit.millis (31 * 24 * 3600 * 1000)))

def connect (host : String) (port : UInt16) (limit : Timespan) : IO Connection := do
  let first ← (Async.race (some <$> connectToHost host port) (wait limit *> pure none)).block
  return first.getD .unanswered

/-- External programs are never started, and a host that one of them should check counts as dead. -/
def execute (_program : String) (_arguments : List String) (_limit : Timespan) : IO Execution :=
  return .notStarted "external programs are not supported"

def outside : Command.Outside IO :=
  { clock, connect, execute, fileContent }

def filter : IO Log.Filter := do
  return ((← IO.getEnv "RUST_LOG").map Log.Filter.ofText).getD .standard

end HostRotation.Main

def main (args : List String) : IO UInt32 := do
  let output ← HostRotation.Command.run HostRotation.Main.outside args
  IO.print output.stdout
  IO.eprint (output.stderr (← HostRotation.Main.filter))
  return output.exitCode.toUInt32
