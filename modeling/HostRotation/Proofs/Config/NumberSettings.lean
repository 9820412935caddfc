import HostRotation.Proofs.Config.Language

namespace HostRotation

inductive NumberSetting where
  | timeout
  | port
  deriving DecidableEq, Repr

namespace NumberSetting

def key : NumberSetting → String
  | .timeout => Property.timeout
  | .port => Property.port

/-- The least number that the setting cannot hold. -/
def bound : NumberSetting → Nat
  | .timeout => 2 ^ 64
  | .port => 2 ^ 16

def error : NumberSetting → String → ConfigError
  | .timeout => .badTimeout
  | .port => .badPort

def place : NumberSetting → Nat
  | .timeout => 4
  | .port => 5

/-- The second configuration has a number for the setting, and is else like the first. -/
def Changes (s : NumberSetting) (c : Config) (n : Nat) (c' : Config) : Prop :=
  match s with
  | .timeout => c'.timeout.toNat = n ∧ c.withTimeout c'.timeout = .ok c'
  | .port => c'.port.toNat = n ∧ c.withPort c'.port = .ok c'

end NumberSetting

namespace Config

variable {p : Properties} {c : Config} {key text : String}

theorem AsksFor.congr {q : Properties} {m : CheckMethod} (h : AsksFor p m)
    (hm : q[Property.method]? = p[Property.method]?)
    (ho : q[Property.olderMethod]? = p[Property.olderMethod]?) : AsksFor q m := by
  rw [← h.eq_methodOf]
  have hq : methodOf q = methodOf p := by rw [methodOf, methodOf, hm, ho]
  rw [← hq]
  exact asksFor_methodOf q

theorem getElem?_insert_of_ne {k : String} (h : key ≠ k) : (p.insert key text)[k]? = p[k]? := by
  simp [Std.ExtTreeMap.getElem?_insert, h]

theorem getElem?_insert_self : (p.insert key text)[key]? = some text := by
  simp

theorem Given.with_numbers {q : Properties} (h : Given p c)
    (hq : ∀ k : String, Property.timeout ≠ k → Property.port ≠ k → q[k]? = p[k]?)
    {t : UInt64} (ht : 0 < t) {w : UInt16} (hw : 0 < w)
    (htimeout : ∀ value, q[Property.timeout]? = some value → Text.Denotes value t.toNat)
    (hnoTimeout : q[Property.timeout]? = none → t = 5000)
    (hport : ∀ value, q[Property.port]? = some value → Text.Denotes value w.toNat)
    (hnoPort : q[Property.port]? = none → w = 22) :
    Given q { c with timeout := t, port := w, timeout_pos := ht, port_pos := hw } where
  hosts := by
    rw [hq _ (by decide) (by decide)]
    exact h.hosts
  user := by
    rw [hq _ (by decide) (by decide)]
    exact h.user
  sshKey := by
    rw [hq _ (by decide) (by decide)]
    exact h.sshKey
  method := h.method.congr (hq _ (by decide) (by decide)) (hq _ (by decide) (by decide))
  timeout := htimeout
  noTimeout := hnoTimeout
  port := hport
  noPort := hnoPort
  initializationAction := by
    rw [hq _ (by decide) (by decide)]
    exact h.initializationAction
  kerberosPrincipal := by
    rw [hq _ (by decide) (by decide)]
    exact h.kerberosPrincipal
  kerberosKeytabPath := by
    rw [hq _ (by decide) (by decide)]
    exact h.kerberosKeytabPath

theorem Given.insert_timeout (h : Given p c) {t : UInt64} (ht : 0 < t)
    (hd : Text.Denotes text t.toNat) :
    Given (p.insert Property.timeout text) { c with timeout := t, timeout_pos := ht } := by
  have hport : (p.insert Property.timeout text)[Property.port]? = p[Property.port]? :=
    getElem?_insert_of_ne (by decide)
  apply h.with_numbers (fun k hk _ => getElem?_insert_of_ne hk) ht c.port_pos
  · rw [getElem?_insert_self]
    rintro value ⟨⟩
    exact hd
  · simp
  · rw [hport]
    exact h.port
  · rw [hport]
    exact h.noPort

theorem Given.insert_port (h : Given p c) {w : UInt16} (hw : 0 < w)
    (hd : Text.Denotes text w.toNat) :
    Given (p.insert Property.port text) { c with port := w, port_pos := hw } := by
  have htimeout : (p.insert Property.port text)[Property.timeout]? = p[Property.timeout]? :=
    getElem?_insert_of_ne (by decide)
  apply h.with_numbers (fun k _ hk => getElem?_insert_of_ne hk) c.timeout_pos hw
  · rw [htimeout]
    exact h.timeout
  · rw [htimeout]
    exact h.noTimeout
  · rw [getElem?_insert_self]
    rintro value ⟨⟩
    exact hd
  · simp

theorem Given.ofProperties_insert (h : Given p c) (s : NumberSetting) {n : Nat} (hpos : 0 < n)
    (hn : n < s.bound) (hd : Text.Denotes text n) :
    ∃ c', s.Changes c n c' ∧ Config.ofProperties (p.insert s.key text) = .ok c' := by
  cases s with
  | timeout =>
    obtain ⟨t, ht, rfl⟩ := exists_uint64 hpos hn
    have hread := (h.insert_timeout ht hd).ofProperties
    exact ⟨_, ⟨rfl, by rw [withTimeout, dif_pos ht]⟩, hread⟩
  | port =>
    obtain ⟨w, hw, rfl⟩ := exists_uint16 hpos hn
    have hread := (h.insert_port hw hd).ofProperties
    exact ⟨_, ⟨rfl, by rw [withPort, dif_pos hw]⟩, hread⟩

theorem hasFault_insert (s : NumberSetting) (h : ¬InRange s.bound text) :
    HasFault (p.insert s.key text) s.place (s.error text) := by
  cases s with
  | timeout => exact .timeout getElem?_insert_self h
  | port => exact .port getElem?_insert_self h

theorem Accepted.place_of_hasFault (h : Accepted p) {s : NumberSetting} {i : Nat} {e : ConfigError}
    (hf : HasFault (p.insert s.key text) i e) : i = s.place := by
  obtain ⟨hosts, hhosts, hentries⟩ := h.host
  obtain ⟨user, huser⟩ := h.user
  obtain ⟨sshKey, hkey⟩ := h.sshKey
  cases hf with
  | host hn =>
    rw [getElem?_insert_of_ne (by cases s <;> decide), hhosts] at hn
    cases hn
  | user hn =>
    rw [getElem?_insert_of_ne (by cases s <;> decide), huser] at hn
    cases hn
  | sshKey hn =>
    rw [getElem?_insert_of_ne (by cases s <;> decide), hkey] at hn
    cases hn
  | blankHost hv hi =>
    rw [getElem?_insert_of_ne (by cases s <;> decide), hhosts] at hv
    cases hv
    obtain ⟨entry, hentry, hblank⟩ := hi.1
    exact absurd hblank (hentries entry (List.mem_of_getElem? hentry))
  | timeout hv hn =>
    cases s with
    | timeout => rfl
    | port =>
      rw [getElem?_insert_of_ne (by decide)] at hv
      exact absurd (h.timeout _ hv) hn
  | port hv hn =>
    cases s with
    | timeout =>
      rw [getElem?_insert_of_ne (by decide)] at hv
      exact absurd (h.port _ hv) hn
    | port => rfl

theorem Accepted.ofProperties_insert (h : Accepted p) (s : NumberSetting)
    (hn : ¬InRange s.bound text) :
    Config.ofProperties (p.insert s.key text) = .error (s.error text) :=
  FirstFault.ofProperties
    ⟨s.place, hasFault_insert s hn, fun _ _ hf => Nat.le_of_eq (h.place_of_hasFault hf).symm⟩

end Config
end HostRotation
