import HostRotation.Fault
import HostRotation.Text.Pieces

namespace HostRotation

inductive Cause where
  | text (s : String)
  | config (e : ConfigError)
  | noLiveHost (e : NoLiveHost)
  | fault (f : Fault)
  deriving DecidableEq, Repr

/-- The texts of a cause, from outer to inner. A configuration fault names its error twice: in its
own text and as its cause. -/
def Cause.texts : Cause → List String
  | .text s => [s]
  | .config e => [e.message]
  | .noLiveHost e => [e.message]
  | .fault (.config e) => [(Fault.config e).message, e.message]
  | .fault (.noLiveHost e) => [e.message]

structure Failure where
  cause : Cause
  contexts : List String := []
  deriving DecidableEq, Repr

namespace Failure

def text (s : String) : Failure :=
  { cause := .text s }

def within (f : Failure) (context : String) : Failure :=
  { f with contexts := context :: f.contexts }

def texts (f : Failure) : List String :=
  f.contexts ++ f.cause.texts

def message (f : Failure) : String :=
  f.texts.headD ""

def hang (margin : String) (s : String) : String :=
  String.intercalate ("\n" ++ margin) (Text.pieces '\n' s)

def column (n : Nat) : String :=
  String.ofList (List.replicate (5 - (Text.numeral n).length) ' ') ++ Text.numeral n

/-- The causes below the outermost text: a single one is indented, several are numbered. -/
def causeLines : List String → List String
  | [s] => ["    " ++ hang "    " s]
  | texts => texts.zipIdx.map fun (s, n) => column n ++ ": " ++ hang "       " s

def report (f : Failure) : String :=
  match f.texts with
  | [] => ""
  | [s] => s
  | s :: causes => s ++ "\n\nCaused by:\n" ++ String.intercalate "\n" (causeLines causes)

/-- The exit status of a command that fails: 75 asks to try again, 1 does not. -/
def exitCode (f : Failure) : UInt8 :=
  match f.cause with
  | .fault e => if e.isRetryable then 75 else 1
  | _ => 1

end Failure
end HostRotation
