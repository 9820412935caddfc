import HostRotation.CheckMethod
import HostRotation.Json.Value

namespace HostRotation.CheckMethod

open Json (Tree Value)

def jsonName : CheckMethod → String
  | .unchecked => "roundRobin"
  | .socket => "roundRobinSocket"
  | .ping => "roundRobinPing"

def toJson (m : CheckMethod) : Value :=
  .string m.jsonName

def ofExactName? (s : String) : Option CheckMethod :=
  all.find? (·.jsonName = s)

def ofTree? : Tree → Option CheckMethod
  | .string items => (Json.Item.text? items).bind ofExactName?
  | .object [(key, .null)] => (Json.Item.text? key).bind ofExactName?
  | _ => none

/-- The method that a JSON text is: its exact name as a string, or as the only key of an object with
nothing at it. -/
def ofJson? (s : String) : Option CheckMethod :=
  (Tree.parse? s).bind ofTree?

end HostRotation.CheckMethod
