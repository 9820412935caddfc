import HostRotation.Config.Basic
import HostRotation.Text.Quoted

namespace HostRotation

def shownRecord (name : String) (fields : List (String × String)) : String :=
  name ++ " \x7b " ++ String.intercalate ", " (fields.map fun f => f.1 ++ ": " ++ f.2) ++ " \x7d"

def shownOption : Option String → String
  | some s => "Some(" ++ Text.quoted s ++ ")"
  | none => "None"

def Credentials.shown (c : Credentials) : String :=
  shownRecord "Credentials" [("user", Text.quoted c.user), ("ssh_key", Text.quoted "<redacted>")]

/-- A configuration on one line, with every setting but the key, which is hidden. -/
def Config.shown (c : Config) : String :=
  shownRecord "EdgeNodeConf"
    [("hosts", "[" ++ String.intercalate ", " (c.hosts.map Text.quoted) ++ "]"),
      ("credentials", c.credentials.shown),
      ("probe_kind", c.method.checkName),
      ("check_timeout_ms", Text.numeral c.timeout.toNat),
      ("check_port", Text.numeral c.port.toNat),
      ("initialization_action", shownOption c.initializationAction),
      ("kerberos_principal", shownOption c.kerberosPrincipal),
      ("kerberos_keytab_path", shownOption c.kerberosKeytabPath)]

end HostRotation
