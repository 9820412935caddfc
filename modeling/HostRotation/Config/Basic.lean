import HostRotation.CheckMethod
import HostRotation.Config.Error
import HostRotation.Timespan

namespace HostRotation

/-- The text of one host: not empty, no blank at either end, no comma. -/
structure IsHost (name : String) : Prop where
  ne_empty : name ≠ ""
  trimmed : Text.trim name = name
  no_comma : ',' ∉ name.toList

theorem isHost_trim {entry : String} (hb : Text.isBlankText entry = false)
    (hc : ',' ∉ entry.toList) : IsHost (Text.trim entry) where
  ne_empty h := by
    rw [Text.trim_eq_empty_iff.1 h] at hb
    cases hb
  trimmed := Text.trim_trim entry
  no_comma h := hc (Text.mem_of_mem_trimChars (Text.toList_trim entry ▸ h))

structure Credentials where
  user : String
  sshKey : String
  deriving DecidableEq, Repr

namespace Config

def defaultTimeout : UInt64 := 5000

def defaultPort : UInt16 := 22

theorem defaultTimeout_pos : 0 < defaultTimeout := by decide

theorem defaultPort_pos : 0 < defaultPort := by decide

end Config

/-- A host list with the settings of its checks. The timeout is in milliseconds. The last three
settings are handed on as they are. -/
structure Config where
  hosts : List String
  credentials : Credentials
  method : CheckMethod := .unchecked
  timeout : UInt64 := Config.defaultTimeout
  port : UInt16 := Config.defaultPort
  initializationAction : Option String := none
  kerberosPrincipal : Option String := none
  kerberosKeytabPath : Option String := none
  hosts_ne_nil : hosts ≠ []
  isHost : ∀ h ∈ hosts, IsHost h
  timeout_pos : 0 < timeout := by exact Config.defaultTimeout_pos
  port_pos : 0 < port := by exact Config.defaultPort_pos
  deriving DecidableEq

namespace Config

def joinHosts (hosts : List String) : String :=
  String.intercalate "," hosts

def hasComma (entry : String) : Bool :=
  entry.toList.contains ','

/-- A configuration of the given hosts with the default settings. A blank entry is reported before
one with a comma, and of each the first. -/
def ofHosts (hosts : List String) (credentials : Credentials) : Except ConfigError Config :=
  if hn : hosts = [] then .error .noHosts
  else
    match hb : hosts.findIdx? Text.isBlankText with
    | some position => .error (.blankHost position (joinHosts hosts))
    | none =>
      match hc : hosts.findIdx? hasComma with
      | some position => .error (.hostWithComma position (joinHosts hosts))
      | none =>
        .ok {
          hosts := hosts.map Text.trim
          credentials
          hosts_ne_nil := by simpa using hn
          isHost := by
            intro h hm
            obtain ⟨entry, he, rfl⟩ := List.mem_map.1 hm
            have hcomma := List.findIdx?_eq_none_iff.1 hc entry he
            refine isHost_trim (List.findIdx?_eq_none_iff.1 hb entry he) ?_
            simpa [hasComma] using hcomma }

def withMethod (c : Config) (method : CheckMethod) : Config :=
  { c with method }

def withTimeout (c : Config) (timeout : UInt64) : Except ConfigError Config :=
  if h : 0 < timeout then .ok { c with timeout, timeout_pos := h }
  else .error (.badTimeout (Text.numeral timeout.toNat))

def withPort (c : Config) (port : UInt16) : Except ConfigError Config :=
  if h : 0 < port then .ok { c with port, port_pos := h }
  else .error (.badPort (Text.numeral port.toNat))

def checkTime (c : Config) : Timespan :=
  .ofMillis c.timeout.toNat

end Config
end HostRotation
