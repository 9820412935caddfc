import HostRotation.Proofs.Config.Reading

namespace HostRotation
namespace Config

/-- What a property map holds that describes a configuration, whatever else it holds. -/
structure Describes (p : Properties) (c : Config) : Prop where
  host : p[Property.host]? = some (joinHosts c.hosts)
  user : p[Property.user]? = some c.credentials.user
  sshKey : p[Property.sshKey]? = some c.credentials.sshKey
  method : p[Property.method]? = some c.method.name
  timeout : p[Property.timeout]? = some (Text.numeral c.timeout.toNat)
  port : p[Property.port]? = some (Text.numeral c.port.toNat)
  initializationAction : p[Property.initializationAction]? = c.initializationAction
  kerberosPrincipal : p[Property.kerberosPrincipal]? = c.kerberosPrincipal
  kerberosKeytabPath : p[Property.kerberosKeytabPath]? = c.kerberosKeytabPath

theorem getElem?_insertSome (p : Properties) (key k : String) (value : Option String) :
    (insertSome p key value)[k]? = if key = k then value.or p[k]? else p[k]? := by
  cases value <;> simp [insertSome, Std.ExtTreeMap.getElem?_insert]

theorem describes_toProperties (c : Config) : Describes c.toProperties c := by
  constructor
  all_goals simp only [toProperties, getElem?_insertSome, Table.getElem?_ofList]
  case initializationAction | kerberosPrincipal | kerberosKeytabPath => exact Option.or_none
  all_goals rfl

theorem Describes.ofProperties {p : Properties} {c : Config} (h : Describes p c) :
    Config.ofProperties p = .ok c := by
  have hosts := readHosts_joinHosts ⟨c.hosts, c.hosts_ne_nil, c.isHost⟩
  have method : methodOf p = c.method := by
    rw [methodOf, h.method]
    exact c.method.ofName_name
  simp only [Config.ofProperties, required, optional, h.host, h.user, h.sshKey, hosts, h.timeout,
    readTimeout_numeral c.timeout_pos, h.port, readPort_numeral c.port_pos, method,
    h.initializationAction, h.kerberosPrincipal, h.kerberosKeytabPath, bind, Except.bind]
  rfl

/-- The configurations that come of a host list or of a property map, with settings that were
changed afterwards or not. -/
inductive Made : Config → Prop where
  | ofHosts {hosts : List String} {credentials : Credentials} {c : Config}
    (h : Config.ofHosts hosts credentials = .ok c) : Made c
  | ofProperties {p : Properties} {c : Config} (h : Config.ofProperties p = .ok c) : Made c
  | withMethod {c : Config} (h : Made c) (method : CheckMethod) : Made (c.withMethod method)
  | withTimeout {c c' : Config} (h : Made c) {timeout : UInt64}
    (ht : c.withTimeout timeout = .ok c') : Made c'
  | withPort {c c' : Config} (h : Made c) {port : UInt16} (hp : c.withPort port = .ok c') : Made c'

/-- The type of configurations holds those that can be made and no other, and each of them is read
back from its property map. -/
theorem made_and_read_back (c : Config) : Made c ∧ ofProperties c.toProperties = .ok c := by
  have h := c.describes_toProperties.ofProperties
  exact ⟨.ofProperties h, h⟩

end Config
end HostRotation
