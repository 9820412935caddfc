import HostRotation.Json.Value
import HostRotation.Properties.Basic

namespace HostRotation

inductive DocumentFault where
  | notJson
  | notObject
  /-- The member with the first such key, in the order of the keys, is of another kind. -/
  | badMember (key : String) (value : Json.Value)

/-- What is said of a fault. For a text that is no JSON it is a mark in the place of what the JSON
library says of it, which is not modelled. -/
def DocumentFault.message : DocumentFault → String
  | .notJson => "<json error>"
  | .notObject => "expected a JSON object of properties"
  | .badMember key value =>
    "property '" ++ key ++ "' must be a string, got " ++ value.compact

namespace Properties

def valueText? : Json.Value → Option String
  | .string s => some s
  | .number n => some (String.ofList n.render)
  | .bool true => some "true"
  | .bool false => some "false"
  | _ => none

def ofMember (member : String × Json.Value) : Except DocumentFault (String × String) :=
  match valueText? member.2 with
  | some text => .ok (member.1, text)
  | none => .error (.badMember member.1 member.2)

def ofValue : Json.Value → Except DocumentFault Properties
  | .object members => (members.mapM ofMember).map (Std.ExtTreeMap.ofList · compare)
  | _ => .error .notObject

def ofDocument (content : String) : Except DocumentFault Properties :=
  match Json.Value.parse? content with
  | some v => ofValue v
  | none => .error .notJson

def toDocument (p : Properties) : Json.Value :=
  .object (p.toList.map fun (key, text) => (key, .string text))

end Properties
end HostRotation
