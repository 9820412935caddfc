import HostRotation.Proofs.CheckMethod.Names
import HostRotation.Proofs.Config.HostLists
import HostRotation.Proofs.Text.Numerals

namespace HostRotation

def Property.all : List String :=
  [host, user, sshKey, method, olderMethod, timeout, port, initializationAction, kerberosPrincipal,
    kerberosKeytabPath]

namespace Config

def InRange (bound : Nat) (value : String) : Prop :=
  ∃ n, 0 < n ∧ n < bound ∧ Text.Denotes value n

/-- The property maps that are accepted. -/
structure Accepted (p : Properties) : Prop where
  host : ∃ value, p[Property.host]? = some value ∧
    ∀ entry ∈ Text.pieces ',' value, Text.trim entry ≠ ""
  user : ∃ value, p[Property.user]? = some value
  sshKey : ∃ value, p[Property.sshKey]? = some value
  timeout : ∀ value, p[Property.timeout]? = some value → InRange (2 ^ 64) value
  port : ∀ value, p[Property.port]? = some value → InRange (2 ^ 16) value

/-- The faults of a property map, each with its place in the order in which they are reported. -/
inductive HasFault (p : Properties) : Nat → ConfigError → Prop where
  | host (h : p[Property.host]? = none) : HasFault p 0 (.missingKey Property.host)
  | user (h : p[Property.user]? = none) : HasFault p 1 (.missingKey Property.user)
  | sshKey (h : p[Property.sshKey]? = none) : HasFault p 2 (.missingKey Property.sshKey)
  | blankHost {value : String} {i : Nat} (hv : p[Property.host]? = some value)
    (hi : IsLeast (blanks (Text.pieces ',' value)) i) : HasFault p 3 (.blankHost i value)
  | timeout {value : String} (hv : p[Property.timeout]? = some value)
    (h : ¬InRange (2 ^ 64) value) : HasFault p 4 (.badTimeout value)
  | port {value : String} (hv : p[Property.port]? = some value)
    (h : ¬InRange (2 ^ 16) value) : HasFault p 5 (.badPort value)

/-- No fault comes before a place. -/
def ClearTo (p : Properties) (place : Nat) : Prop :=
  ∀ i e, HasFault p i e → place ≤ i

def FirstFault (p : Properties) (e : ConfigError) : Prop :=
  ∃ place, HasFault p place e ∧ ClearTo p place

/-- The method that a property map asks for. The older key counts only when the newer is absent. -/
inductive AsksFor (p : Properties) : CheckMethod → Prop where
  | named {name : String} {m : CheckMethod} (h : p[Property.method]? = some name)
    (hm : CheckMethod.Named name m) : AsksFor p m
  | unknown {name : String} (h : p[Property.method]? = some name)
    (hm : ∀ m, ¬CheckMethod.Named name m) : AsksFor p .unchecked
  | olderPing {name : String} (h : p[Property.method]? = none)
    (ho : p[Property.olderMethod]? = some name) (hp : Text.sameName "ping" (Text.trim name)) :
    AsksFor p .ping
  | olderOther {name : String} (h : p[Property.method]? = none)
    (ho : p[Property.olderMethod]? = some name) (hp : ¬Text.sameName "ping" (Text.trim name)) :
    AsksFor p .unchecked
  | absent (h : p[Property.method]? = none) (ho : p[Property.olderMethod]? = none) :
    AsksFor p .unchecked

/-- A configuration with the settings that a property map gives, each by its own key. -/
structure Given (p : Properties) (c : Config) : Prop where
  hosts : ∃ value, p[Property.host]? = some value ∧
    c.hosts = (Text.pieces ',' value).map Text.trim ∧
    c.hosts.length = value.toList.count ',' + 1
  user : p[Property.user]? = some c.credentials.user
  sshKey : p[Property.sshKey]? = some c.credentials.sshKey
  method : AsksFor p c.method
  timeout : ∀ value, p[Property.timeout]? = some value → Text.Denotes value c.timeout.toNat
  noTimeout : p[Property.timeout]? = none → c.timeout = 5000
  port : ∀ value, p[Property.port]? = some value → Text.Denotes value c.port.toNat
  noPort : p[Property.port]? = none → c.port = 22
  initializationAction : p[Property.initializationAction]? = c.initializationAction
  kerberosPrincipal : p[Property.kerberosPrincipal]? = c.kerberosPrincipal
  kerberosKeytabPath : p[Property.kerberosKeytabPath]? = c.kerberosKeytabPath

variable {p : Properties} {c : Config} {value : String}

theorem asksFor_methodOf (p : Properties) : AsksFor p (methodOf p) := by
  rw [methodOf]
  cases hm : p[Property.method]? with
  | some name =>
    simp only
    rw [CheckMethod.ofName]
    cases hn : CheckMethod.ofName? name with
    | some m => exact .named hm (CheckMethod.ofName?_eq_some_iff.1 hn)
    | none => exact .unknown hm (CheckMethod.ofName?_eq_none_iff.1 hn)
  | none =>
    cases ho : p[Property.olderMethod]? with
    | none => exact .absent hm ho
    | some name =>
      simp only [Option.map_some, Option.getD_some]
      rw [CheckMethod.ofOlderName]
      split
      · next hp => exact .olderPing hm ho hp
      · next hp => exact .olderOther hm ho hp

theorem AsksFor.eq_methodOf {m : CheckMethod} (h : AsksFor p m) : methodOf p = m := by
  cases h with
  | named h hm =>
    simp only [methodOf, h, CheckMethod.ofName, CheckMethod.ofName?_eq_some_iff.2 hm]
    rfl
  | @unknown name h hm =>
    have hn : CheckMethod.ofName? name = none := CheckMethod.ofName?_eq_none_iff.2 hm
    simp [methodOf, h, CheckMethod.ofName, hn]
  | olderPing h ho hp => simp [methodOf, h, ho, CheckMethod.ofOlderName, hp]
  | olderOther h ho hp => simp [methodOf, h, ho, CheckMethod.ofOlderName, hp]
  | absent h ho => simp [methodOf, h, ho]

theorem findIdx?_isBlankText_eq_none_iff {entries : List String} :
    entries.findIdx? Text.isBlankText = none ↔ ∀ entry ∈ entries, Text.trim entry ≠ "" := by
  simp only [List.findIdx?_eq_none_iff, Ne, Text.trim_eq_empty_iff, Bool.not_eq_true]

theorem readTimeout_eq_ok {t : UInt64} (ht : 0 < t) (h : Text.Denotes value t.toNat) :
    readTimeout value = .ok ⟨t, ht⟩ := by
  simp [readTimeout, Text.readUInt64_eq_ok_iff.2 h, ht]

theorem readPort_eq_ok {t : UInt16} (ht : 0 < t) (h : Text.Denotes value t.toNat) :
    readPort value = .ok ⟨t, ht⟩ := by
  simp [readPort, Text.readUInt16_eq_ok_iff.2 h, ht]

theorem readTimeout_eq_error (h : ¬InRange (2 ^ 64) value) :
    readTimeout value = .error (.badTimeout value) := by
  rw [readTimeout]
  split
  · next t ht =>
    rw [dif_neg]
    intro hpos
    exact h ⟨t.toNat, UInt64.lt_iff_toNat_lt.1 hpos, t.toNat_lt, Text.readUInt64_eq_ok_iff.1 ht⟩
  · rfl

theorem readPort_eq_error (h : ¬InRange (2 ^ 16) value) :
    readPort value = .error (.badPort value) := by
  rw [readPort]
  split
  · next t ht =>
    rw [dif_neg]
    intro hpos
    exact h ⟨t.toNat, UInt16.lt_iff_toNat_lt.1 hpos, t.toNat_lt, Text.readUInt16_eq_ok_iff.1 ht⟩
  · rfl

theorem exists_uint64 {n : Nat} (hpos : 0 < n) (hn : n < 2 ^ 64) :
    ∃ t : UInt64, 0 < t ∧ t.toNat = n := by
  have ht : (UInt64.ofNat n).toNat = n := UInt64.toNat_ofNat_of_lt' hn
  exact ⟨.ofNat n, UInt64.lt_iff_toNat_lt.2 (ht.symm ▸ hpos), ht⟩

theorem exists_uint16 {n : Nat} (hpos : 0 < n) (hn : n < 2 ^ 16) :
    ∃ t : UInt16, 0 < t ∧ t.toNat = n := by
  have ht : (UInt16.ofNat n).toNat = n := UInt16.toNat_ofNat_of_lt' hn
  exact ⟨.ofNat n, UInt16.lt_iff_toNat_lt.2 (ht.symm ▸ hpos), ht⟩

theorem InRange.exists_timeout (h : InRange (2 ^ 64) value) :
    ∃ t : UInt64, 0 < t ∧ Text.Denotes value t.toNat := by
  obtain ⟨n, hpos, hn, hv⟩ := h
  obtain ⟨t, ht, rfl⟩ := exists_uint64 hpos hn
  exact ⟨t, ht, hv⟩

theorem InRange.exists_port (h : InRange (2 ^ 16) value) :
    ∃ t : UInt16, 0 < t ∧ Text.Denotes value t.toNat := by
  obtain ⟨n, hpos, hn, hv⟩ := h
  obtain ⟨t, ht, rfl⟩ := exists_uint16 hpos hn
  exact ⟨t, ht, hv⟩

theorem Given.ofProperties (h : Given p c) : Config.ofProperties p = .ok c := by
  obtain ⟨value, hhost, hnames, -⟩ := h.hosts
  have hblank : (Text.pieces ',' value).findIdx? Text.isBlankText = none := by
    rw [findIdx?_isBlankText_eq_none_iff]
    exact fun entry he => (c.isHost _ (hnames ▸ List.mem_map_of_mem he)).ne_empty
  obtain ⟨hosts, hread, he⟩ := readHosts_eq_ok hblank
  obtain rfl : hosts = ⟨c.hosts, c.hosts_ne_nil, c.isHost⟩ := Subtype.ext (he.trans hnames.symm)
  have htimeout : optional ⟨defaultTimeout, defaultTimeout_pos⟩ readTimeout p[Property.timeout]? =
      .ok ⟨c.timeout, c.timeout_pos⟩ := by
    cases ht : p[Property.timeout]? with
    | none => exact congrArg Except.ok (Subtype.ext (h.noTimeout ht).symm)
    | some value => rw [optional, readTimeout_eq_ok c.timeout_pos (h.timeout value ht)]
  have hport : optional ⟨defaultPort, defaultPort_pos⟩ readPort p[Property.port]? =
      .ok ⟨c.port, c.port_pos⟩ := by
    cases hp : p[Property.port]? with
    | none => exact congrArg Except.ok (Subtype.ext (h.noPort hp).symm)
    | some value => rw [optional, readPort_eq_ok c.port_pos (h.port value hp)]
  simp only [Config.ofProperties, required, hhost, h.user, h.sshKey, hread, htimeout, hport,
    h.method.eq_methodOf, h.initializationAction, h.kerberosPrincipal, h.kerberosKeytabPath, bind,
    Except.bind]
  rfl

theorem Given.accepted (h : Given p c) : Accepted p := by
  obtain ⟨value, hhost, hnames, -⟩ := h.hosts
  exact {
    host := by
      refine ⟨value, hhost, fun entry he => ?_⟩
      exact (c.isHost _ (hnames ▸ List.mem_map_of_mem he)).ne_empty
    user := ⟨_, h.user⟩
    sshKey := ⟨_, h.sshKey⟩
    timeout := fun value ht =>
      ⟨c.timeout.toNat, UInt64.lt_iff_toNat_lt.1 c.timeout_pos, c.timeout.toNat_lt,
        h.timeout value ht⟩
    port := fun value hp =>
      ⟨c.port.toNat, UInt16.lt_iff_toNat_lt.1 c.port_pos, c.port.toNat_lt, h.port value hp⟩ }

theorem Accepted.exists_given (h : Accepted p) : ∃ c, Given p c := by
  obtain ⟨value, hhost, hentries⟩ := h.host
  obtain ⟨user, huser⟩ := h.user
  obtain ⟨sshKey, hkey⟩ := h.sshKey
  obtain ⟨hosts, -, hnames⟩ := readHosts_eq_ok (findIdx?_isBlankText_eq_none_iff.2 hentries)
  have htimeout : ∃ t : UInt64, 0 < t ∧
      (∀ value, p[Property.timeout]? = some value → Text.Denotes value t.toNat) ∧
      (p[Property.timeout]? = none → t = 5000) := by
    cases ht : p[Property.timeout]? with
    | none => exact ⟨5000, by decide, nofun, fun _ => rfl⟩
    | some value =>
      obtain ⟨t, hpos, hv⟩ := (h.timeout value ht).exists_timeout
      exact ⟨t, hpos, fun _ he => Option.some.inj he ▸ hv, nofun⟩
  have hport : ∃ t : UInt16, 0 < t ∧
      (∀ value, p[Property.port]? = some value → Text.Denotes value t.toNat) ∧
      (p[Property.port]? = none → t = 22) := by
    cases hp : p[Property.port]? with
    | none => exact ⟨22, by decide, nofun, fun _ => rfl⟩
    | some value =>
      obtain ⟨t, hpos, hv⟩ := (h.port value hp).exists_port
      exact ⟨t, hpos, fun _ he => Option.some.inj he ▸ hv, nofun⟩
  obtain ⟨timeout, timeout_pos, ht, hnt⟩ := htimeout
  obtain ⟨port, port_pos, hp, hnp⟩ := hport
  refine ⟨{
    hosts := hosts.1
    credentials := { user, sshKey }
    method := methodOf p
    timeout
    port
    initializationAction := p[Property.initializationAction]?
    kerberosPrincipal := p[Property.kerberosPrincipal]?
    kerberosKeytabPath := p[Property.kerberosKeytabPath]?
    hosts_ne_nil := hosts.2.1
    isHost := hosts.2.2
    timeout_pos
    port_pos }, ⟨value, hhost, hnames, ?_⟩, huser, hkey, asksFor_methodOf p, ht, hnt, hp, hnp, rfl,
    rfl, rfl⟩
  show hosts.1.length = _
  rw [hnames, List.length_map, Text.length_pieces]

namespace ClearTo

variable {place : Nat}

theorem host (h : ClearTo p place) (hp : 0 < place) : ∃ value, p[Property.host]? = some value := by
  rw [← Option.ne_none_iff_exists']
  intro hn
  exact Nat.not_le.2 hp (h _ _ (.host hn))

theorem user (h : ClearTo p place) (hp : 1 < place) : ∃ value, p[Property.user]? = some value := by
  rw [← Option.ne_none_iff_exists']
  intro hn
  exact Nat.not_le.2 hp (h _ _ (.user hn))

theorem sshKey (h : ClearTo p place) (hp : 2 < place) :
    ∃ value, p[Property.sshKey]? = some value := by
  rw [← Option.ne_none_iff_exists']
  intro hn
  exact Nat.not_le.2 hp (h _ _ (.sshKey hn))

theorem entries (h : ClearTo p place) (hp : 3 < place) (hv : p[Property.host]? = some value) :
    (Text.pieces ',' value).findIdx? Text.isBlankText = none := by
  rcases findIdx?_isBlankText_cases (Text.pieces ',' value) with ⟨i, -, hi⟩ | ⟨hn, -⟩
  · exact absurd (h _ _ (.blankHost hv hi)) (Nat.not_le.2 hp)
  · exact hn

theorem timeout (h : ClearTo p place) (hp : 4 < place) (hv : p[Property.timeout]? = some value) :
    InRange (2 ^ 64) value := by
  by_contra hn
  exact Nat.not_le.2 hp (h _ _ (.timeout hv hn))

theorem port (h : ClearTo p place) (hp : 5 < place) (hv : p[Property.port]? = some value) :
    InRange (2 ^ 16) value := by
  by_contra hn
  exact Nat.not_le.2 hp (h _ _ (.port hv hn))

theorem required (h : ClearTo p place) (hp : 3 < place) : ∃ value user key names,
    p[Property.host]? = some value ∧ p[Property.user]? = some user ∧
    p[Property.sshKey]? = some key ∧ readHosts value = .ok names := by
  obtain ⟨value, hv⟩ := h.host (by omega)
  obtain ⟨user, hu⟩ := h.user (by omega)
  obtain ⟨key, hk⟩ := h.sshKey (by omega)
  obtain ⟨names, hread, -⟩ := readHosts_eq_ok (h.entries hp hv)
  exact ⟨value, user, key, names, hv, hu, hk, hread⟩

theorem exists_timeout (h : ClearTo p place) (hp : 4 < place) : ∃ t,
    optional ⟨defaultTimeout, defaultTimeout_pos⟩ readTimeout p[Property.timeout]? = .ok t := by
  cases ht : p[Property.timeout]? with
  | none => exact ⟨_, rfl⟩
  | some value =>
    obtain ⟨t, hpos, hd⟩ := (h.timeout hp ht).exists_timeout
    exact ⟨⟨t, hpos⟩, by rw [optional, readTimeout_eq_ok hpos hd]⟩

theorem accepted (h : ClearTo p 6) : Accepted p := by
  obtain ⟨value, hv⟩ := h.host (by decide)
  exact {
    host := ⟨value, hv, findIdx?_isBlankText_eq_none_iff.1 (h.entries (by decide) hv)⟩
    user := h.user (by decide)
    sshKey := h.sshKey (by decide)
    timeout := fun _ => h.timeout (by decide)
    port := fun _ => h.port (by decide) }

end ClearTo

theorem exists_firstFault (h : ¬ClearTo p 6) : ∃ e, FirstFault p e := by
  have hf : ∃ place e, HasFault p place e := by
    by_contra hn
    exact h fun i e hf => absurd ⟨i, e, hf⟩ hn
  classical
  obtain ⟨e, he⟩ := Nat.find_spec hf
  exact ⟨e, _, he, fun i e' h' => Nat.find_min' hf ⟨e', h'⟩⟩

theorem FirstFault.ofProperties {e : ConfigError} (h : FirstFault p e) :
    Config.ofProperties p = .error e := by
  obtain ⟨place, hf, hc⟩ := h
  -- what comes before the fault is read, since no fault comes before it
  cases hf with
  | host hn =>
    simp only [Config.ofProperties, required, hn]
    rfl
  | user hn =>
    obtain ⟨value, hv⟩ := hc.host (by decide)
    simp only [Config.ofProperties, required, hv, hn]
    rfl
  | sshKey hn =>
    obtain ⟨value, hv⟩ := hc.host (by decide)
    obtain ⟨user, hu⟩ := hc.user (by decide)
    simp only [Config.ofProperties, required, hv, hu, hn]
    rfl
  | @blankHost value i hv hi =>
    obtain ⟨user, hu⟩ := hc.user (by decide)
    obtain ⟨key, hk⟩ := hc.sshKey (by decide)
    have hread : readHosts value = .error (.blankHost i value) := by
      rcases findIdx?_isBlankText_cases (Text.pieces ',' value) with ⟨j, hj, hleast⟩ | ⟨-, hn⟩
      · rw [readHosts_eq_error hj, hi.unique hleast]
      · exact absurd hi.1 (hn ▸ Set.notMem_empty i)
    simp only [Config.ofProperties, required, hv, hu, hk, hread, bind, Except.bind]
  | @timeout value hv hn =>
    obtain ⟨hosts, user, key, names, hh, hu, hk, hread⟩ := hc.required (by decide)
    simp only [Config.ofProperties, required, hh, hu, hk, hread, optional, hv,
      readTimeout_eq_error hn, bind, Except.bind]
  | @port value hv hn =>
    obtain ⟨hosts, user, key, names, hh, hu, hk, hread⟩ := hc.required (by decide)
    obtain ⟨t, ht⟩ := hc.exists_timeout (by decide)
    have hport : optional ⟨defaultPort, defaultPort_pos⟩ readPort p[Property.port]? =
        .error (.badPort value) := by
      rw [hv, optional, readPort_eq_error hn]
    simp only [Config.ofProperties, required, hh, hu, hk, hread, ht, hport, bind, Except.bind]

theorem accepted_or_firstFault (p : Properties) : Accepted p ∨ ∃ e, FirstFault p e := by
  by_cases h : ClearTo p 6
  · exact .inl h.accepted
  · exact .inr (exists_firstFault h)

theorem ofProperties_congr {q : Properties} (h : ∀ key ∈ Property.all, q[key]? = p[key]?) :
    ofProperties q = ofProperties p := by
  simp only [Property.all, List.forall_mem_cons] at h
  obtain ⟨host, user, sshKey, method, olderMethod, timeout, port, action, principal, keytab, -⟩ := h
  simp only [ofProperties, required, methodOf, host, user, sshKey, method, olderMethod, timeout,
    port, action, principal, keytab]

theorem given_of_ofProperties (h : ofProperties p = .ok c) : Given p c := by
  rcases accepted_or_firstFault p with ha | ⟨e, he⟩
  · obtain ⟨c', hc'⟩ := ha.exists_given
    obtain rfl := Except.ok.inj (h.symm.trans hc'.ofProperties)
    exact hc'
  · cases h.symm.trans he.ofProperties

/-- A property map is read as its language says, and refused for its first fault. -/
theorem ofProperties_language (p : Properties) :
    ((∃ c, ofProperties p = .ok c) ↔ Accepted p) ∧
    (∀ c, ofProperties p = .ok c ↔ Given p c) ∧
    (∀ e, ofProperties p = .error e ↔ FirstFault p e) ∧
    ∀ q : Properties, (∀ key ∈ Property.all, q[key]? = p[key]?) →
      ofProperties q = ofProperties p := by
  have hok : ∀ c, ofProperties p = .ok c ↔ Given p c :=
    fun c => ⟨given_of_ofProperties, Given.ofProperties⟩
  refine ⟨?_, hok, fun e => ⟨fun h => ?_, FirstFault.ofProperties⟩, fun q => ofProperties_congr⟩
  · simp only [hok]
    exact ⟨fun ⟨c, hc⟩ => hc.accepted, Accepted.exists_given⟩
  · rcases accepted_or_firstFault p with ha | ⟨e', he'⟩
    · obtain ⟨c, hc⟩ := ha.exists_given
      cases h.symm.trans hc.ofProperties
    · obtain rfl := Except.error.inj (h.symm.trans he'.ofProperties)
      exact he'

def faulty : Properties :=
  .ofList [(Property.host, "a,"), (Property.user, "u"), (Property.timeout, "0")]

theorem ofProperties_language_faulty :
    (∀ key ∈ Property.all, (faulty.insert "colour" "red")[key]? = faulty[key]?) ∧
      ofProperties (faulty.insert "colour" "red") = .error (.missingKey Property.sshKey) := by
  have hq : ∀ key ∈ Property.all, (faulty.insert "colour" "red")[key]? = faulty[key]? := by
    intro key hk
    have hne : "colour" ≠ key := by
      rintro rfl
      exact absurd hk (by decide)
    simp [Std.ExtTreeMap.getElem?_insert, hne]
  obtain ⟨-, -, herror, hcongr⟩ := ofProperties_language faulty
  refine ⟨hq, (hcongr _ hq).trans ((herror _).2 ⟨2, .sshKey ?_, ?_⟩)⟩
  · exact Table.getElem?_ofList _ _
  · have hhost : faulty[Property.host]? = some "a," := Table.getElem?_ofList _ _
    have huser : faulty[Property.user]? = some "u" := Table.getElem?_ofList _ _
    intro i e h
    cases h with
    | host hn => cases hhost.symm.trans hn
    | user hn => cases huser.symm.trans hn
    | sshKey | blankHost | timeout | port => decide

end Config
end HostRotation
