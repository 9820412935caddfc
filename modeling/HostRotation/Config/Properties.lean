import HostRotation.Config.Basic
import HostRotation.Log
import HostRotation.Properties.Basic

namespace HostRotation

namespace Property

def host : String := "host"
def user : String := "user"
def sshKey : String := "sshKey"
def method : String := "loadBalancingMethod"
/-- The key that older configurations use for the method; a newer one takes precedence. -/
def olderMethod : String := "edgeNodeCheckMethod"
def timeout : String := "checkTimeout"
def port : String := "checkPort"
def initializationAction : String := "initializationAction"
def kerberosPrincipal : String := "kerberosPrincipal"
def kerberosKeytabPath : String := "kerberosKeytabPath"

end Property

namespace Config

def required (p : Properties) (key : String) : Except ConfigError String :=
  match p[key]? with
  | some value => .ok value
  | none => .error (.missingKey key)

abbrev HostList : Type :=
  { hosts : List String // hosts ≠ [] ∧ ∀ h ∈ hosts, IsHost h }

def readHosts (value : String) : Except ConfigError HostList :=
  match hb : (Text.pieces ',' value).findIdx? Text.isBlankText with
  | some position => .error (.blankHost position value)
  | none => .ok ⟨(Text.pieces ',' value).map Text.trim, by
      refine ⟨by simpa using Text.pieces_ne_nil ',' value, fun h hm => ?_⟩
      obtain ⟨piece, hp, rfl⟩ := List.mem_map.1 hm
      exact isHost_trim (List.findIdx?_eq_none_iff.1 hb piece hp) (Text.not_mem_of_mem_pieces hp)⟩

def readTimeout (value : String) : Except ConfigError { t : UInt64 // 0 < t } :=
  match Text.readUInt64 (Text.trim value) with
  | .ok t => if h : 0 < t then .ok ⟨t, h⟩ else .error (.badTimeout value)
  | .error _ => .error (.badTimeout value)

def readPort (value : String) : Except ConfigError { p : UInt16 // 0 < p } :=
  match Text.readUInt16 (Text.trim value) with
  | .ok p => if h : 0 < p then .ok ⟨p, h⟩ else .error (.badPort value)
  | .error _ => .error (.badPort value)

/-- The method that a property map asks for. -/
def methodOf (p : Properties) : CheckMethod :=
  match p[Property.method]? with
  | some name => .ofName name
  | none => (p[Property.olderMethod]?.map CheckMethod.ofOlderName).getD .unchecked

def optional {α : Type} (default : α) (read : String → Except ConfigError α) :
    Option String → Except ConfigError α
  | some value => read value
  | none => .ok default

/-- The configuration of a property map, or its first fault in a fixed order: a missing host list,
user or key, a blank host, a bad timeout, a bad port. Keys that are not listed above are
disregarded. -/
def ofProperties (p : Properties) : Except ConfigError Config := do
  let host ← required p Property.host
  let user ← required p Property.user
  let sshKey ← required p Property.sshKey
  let hosts ← readHosts host
  let timeout ← optional ⟨defaultTimeout, defaultTimeout_pos⟩ readTimeout p[Property.timeout]?
  let port ← optional ⟨defaultPort, defaultPort_pos⟩ readPort p[Property.port]?
  return {
    hosts := hosts.1
    credentials := { user, sshKey }
    method := methodOf p
    timeout := timeout.1
    port := port.1
    initializationAction := p[Property.initializationAction]?
    kerberosPrincipal := p[Property.kerberosPrincipal]?
    kerberosKeytabPath := p[Property.kerberosKeytabPath]?
    hosts_ne_nil := hosts.2.1
    isHost := hosts.2.2
    timeout_pos := timeout.2
    port_pos := port.2 }

def readEntry (c : Config) : Log.Entry :=
  { level := .debug
    source := .config
    message := "Parsed edge node config: " ++ Text.numeral c.hosts.length ++ " hosts, method "
      ++ c.method.name ++ ", timeout " ++ Text.numeral c.timeout.toNat ++ "ms" }

def insertSome (p : Properties) (key : String) : Option String → Properties
  | some value => p.insert key value
  | none => p

/-- The property map of a configuration, in the keys of newer configurations. -/
def toProperties (c : Config) : Properties :=
  let p : Properties := .ofList
    [(Property.host, joinHosts c.hosts), (Property.user, c.credentials.user),
      (Property.sshKey, c.credentials.sshKey), (Property.method, c.method.name),
      (Property.timeout, Text.numeral c.timeout.toNat), (Property.port, Text.numeral c.port.toNat)]
  let p := insertSome p Property.initializationAction c.initializationAction
  let p := insertSome p Property.kerberosPrincipal c.kerberosPrincipal
  insertSome p Property.kerberosKeytabPath c.kerberosKeytabPath

end Config
end HostRotation
