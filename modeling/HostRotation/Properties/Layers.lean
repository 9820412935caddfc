import HostRotation.Properties.Document
import HostRotation.Text.Blank

namespace HostRotation

inductive LayerFault where
  | unreadable (path reason : String)
  | badDocument (path : String) (fault : DocumentFault)
  | badPair (pair : String)

def LayerFault.message : LayerFault → String
  | .unreadable path reason => "Failed to read config file " ++ path ++ ": " ++ reason
  | .badDocument path fault => "Invalid config file " ++ path ++ ": " ++ fault.message
  | .badPair pair => "Invalid property '" ++ pair ++ "': expected key=value"

/-- A file by its path, with its content or the reason why it has none. -/
structure ConfigFile where
  path : String
  content : Except String ByteArray

namespace Properties

/-- Splits a pair at its first equals sign. The key is trimmed and must not be blank; the value is
taken as it is. -/
def ofPair (pair : String) : Except LayerFault (String × String) :=
  let key := String.ofList (pair.toList.takeWhile (· ≠ '='))
  match pair.toList.dropWhile (· ≠ '=') with
  | [] => .error (.badPair pair)
  | _ :: value =>
    if Text.isBlankText key then .error (.badPair pair)
    else .ok (Text.trim key, String.ofList value)

def ofFile (file : ConfigFile) : Except LayerFault Properties :=
  match file.content with
  | .error reason => .error (.unreadable file.path reason)
  | .ok bytes =>
    match String.fromUTF8? bytes with
    | none => .error (.unreadable file.path "stream did not contain valid UTF-8")
    | some content => (ofDocument content).mapError (.badDocument file.path)

def override (p : Properties) (pair : String) : Except LayerFault Properties :=
  (ofPair pair).map fun (key, value) => p.insert key value

/-- The property map of a file, if there is one, with pairs on top of it. Of two pairs with one key
the later counts, and a fault of the file is reported before one of a pair. -/
def ofLayers (file : Option ConfigFile) (pairs : List String) : Except LayerFault Properties := do
  let base ← match file with
    | some file => ofFile file
    | none => .ok ∅
  pairs.foldlM override base

end Properties
end HostRotation
