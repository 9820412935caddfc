import HostRotation.Text.Blank
import HostRotation.Text.Letters

namespace HostRotation

inductive CheckMethod where
  | unchecked
  | socket
  | ping
  deriving DecidableEq, Repr, Inhabited

namespace CheckMethod

def all : List CheckMethod :=
  [.unchecked, .socket, .ping]

def name : CheckMethod → String
  | .unchecked => "roundRobin"
  | .socket => "roundRobinSocket"
  | .ping => "roundRobinPing"

def checkName : CheckMethod → String
  | .unchecked => "None"
  | .socket => "TcpConnect"
  | .ping => "ExternalPing"

/-- The method that a text names, when blanks around it and the case of its letters are
disregarded. -/
def ofName? (s : String) : Option CheckMethod :=
  all.find? fun m => Text.sameName m.name (Text.trim s)

/-- The method of a configuration; a name that is none means no check. -/
def ofName (s : String) : CheckMethod :=
  (ofName? s).getD .unchecked

@[simp] theorem ofName_name (m : CheckMethod) : ofName m.name = m := by
  cases m <;> decide

/-- The method of an older configuration, which could only ask for a ping. -/
def ofOlderName (s : String) : CheckMethod :=
  if Text.sameName "ping" (Text.trim s) then .ping else .unchecked

end CheckMethod
end HostRotation
