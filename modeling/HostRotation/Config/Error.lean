import HostRotation.Text.Numeral

namespace HostRotation

inductive ConfigError where
  | missingKey (key : String)
  | noHosts
  /-- The entry at a position of the host list is blank; the value is the whole list. -/
  | blankHost (position : Nat) (value : String)
  /-- The entry at a position holds a comma, which separates entries. -/
  | hostWithComma (position : Nat) (value : String)
  | badTimeout (value : String)
  | badPort (value : String)
  deriving DecidableEq, Repr

def ConfigError.message : ConfigError → String
  | .missingKey key => key ++ " must be specified"
  | .noHosts => "host must contain at least one entry"
  | .blankHost position value =>
    "host entry " ++ Text.numeral position ++ " is empty in '" ++ value ++ "'"
  | .hostWithComma position value =>
    "host entry " ++ Text.numeral position ++ " contains a ',' in '" ++ value ++ "'"
  | .badTimeout value =>
    "checkTimeout must be a positive number of milliseconds, got '" ++ value ++ "'"
  | .badPort value =>
    "checkPort must be a port number between 1 and 65535, got '" ++ value ++ "'"

end HostRotation
