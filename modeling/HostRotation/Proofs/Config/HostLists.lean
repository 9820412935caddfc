import Mathlib.Order.Bounds.Basic
import HostRotation.Proofs.Config.Reading

namespace HostRotation

def indicesOf (p : String → Prop) (entries : List String) : Set Nat :=
  { i | ∃ entry, entries[i]? = some entry ∧ p entry }

theorem indicesOf_eq_empty_iff {p : String → Prop} {entries : List String} :
    indicesOf p entries = ∅ ↔ ∀ entry ∈ entries, ¬p entry := by
  simp only [indicesOf, Set.eq_empty_iff_forall_notMem, Set.mem_ofPred_eq, List.mem_iff_getElem?]
  grind

theorem findIdx?_cases (p : String → Bool) (entries : List String) :
    (∃ i, entries.findIdx? p = some i ∧ IsLeast (indicesOf (p · = true) entries) i) ∨
      (entries.findIdx? p = none ∧ indicesOf (p · = true) entries = ∅) := by
  cases h : entries.findIdx? p with
  | none =>
    rw [List.findIdx?_eq_none_iff] at h
    refine .inr ⟨rfl, indicesOf_eq_empty_iff.2 fun entry he => ?_⟩
    simp [h entry he]
  | some i =>
    obtain ⟨hi, hp, hfirst⟩ := List.findIdx?_eq_some_iff_getElem.1 h
    refine .inl ⟨i, rfl, ⟨entries[i], List.getElem?_eq_getElem hi, hp⟩, ?_⟩
    rintro j ⟨entry, hj, hq⟩
    by_contra hlt
    obtain ⟨hjl, rfl⟩ := List.getElem?_eq_some_iff.1 hj
    exact hfirst j (Nat.not_le.1 hlt) hq

namespace Config

def blanks : List String → Set Nat :=
  indicesOf (Text.trim · = "")

def commas : List String → Set Nat :=
  indicesOf (',' ∈ ·.toList)

theorem findIdx?_isBlankText_cases (hosts : List String) :
    (∃ i, hosts.findIdx? Text.isBlankText = some i ∧ IsLeast (blanks hosts) i) ∨
      (hosts.findIdx? Text.isBlankText = none ∧ blanks hosts = ∅) := by
  simpa only [blanks, Text.trim_eq_empty_iff] using findIdx?_cases Text.isBlankText hosts

theorem findIdx?_hasComma_cases (hosts : List String) :
    (∃ i, hosts.findIdx? hasComma = some i ∧ IsLeast (commas hosts) i) ∨
      (hosts.findIdx? hasComma = none ∧ commas hosts = ∅) := by
  simpa only [commas, hasComma, List.contains_iff_mem] using findIdx?_cases hasComma hosts

theorem HostList.ne_nil (hosts : HostList) : hosts.1 ≠ [] :=
  hosts.2.1

theorem HostList.isHost (hosts : HostList) : ∀ h ∈ hosts.1, IsHost h :=
  hosts.2.2

def plain (hosts : HostList) (credentials : Credentials) : Config where
  hosts := hosts.1
  credentials
  hosts_ne_nil := hosts.ne_nil
  isHost := hosts.isHost

def plainProperties (hosts : List String) (credentials : Credentials) : Properties :=
  .ofList [(Property.host, joinHosts hosts), (Property.user, credentials.user),
    (Property.sshKey, credentials.sshKey)]

variable {hosts : List String} {credentials : Credentials} {i : Nat}

theorem ofHosts_eq_blankHost (h : hosts.findIdx? Text.isBlankText = some i) :
    ofHosts hosts credentials = .error (.blankHost i (joinHosts hosts)) := by
  have hn : hosts ≠ [] := by
    rintro rfl
    cases h
  rw [ofHosts, dif_neg hn]
  split <;> simp_all

theorem ofHosts_eq_hostWithComma (hb : hosts.findIdx? Text.isBlankText = none)
    (hc : hosts.findIdx? hasComma = some i) :
    ofHosts hosts credentials = .error (.hostWithComma i (joinHosts hosts)) := by
  have hn : hosts ≠ [] := by
    rintro rfl
    cases hc
  rw [ofHosts, dif_neg hn]
  split
  · simp_all
  · split <;> simp_all

theorem ofHosts_eq_plain (hn : hosts ≠ []) (hb : hosts.findIdx? Text.isBlankText = none)
    (hc : hosts.findIdx? hasComma = none) {names : HostList} (h : names.1 = hosts.map Text.trim) :
    ofHosts hosts credentials = .ok (plain names credentials) := by
  obtain ⟨names, hnames⟩ := names
  subst h
  rw [ofHosts, dif_neg hn]
  split
  · simp_all
  · split
    · simp_all
    · rfl

theorem ofProperties_plainProperties :
    ofProperties (plainProperties hosts credentials) =
      (readHosts (joinHosts hosts)).map (plain · credentials) := by
  have lookup (key : String) : (plainProperties hosts credentials)[key]? = _ :=
    Table.getElem?_ofList _ key
  have host : (plainProperties hosts credentials)[Property.host]? = some (joinHosts hosts) := by
    rw [lookup]
    rfl
  have user : (plainProperties hosts credentials)[Property.user]? = some credentials.user := by
    rw [lookup]
    rfl
  have key : (plainProperties hosts credentials)[Property.sshKey]? = some credentials.sshKey := by
    rw [lookup]
    rfl
  simp only [ofProperties, required, host, user, key, bind, Except.bind]
  cases readHosts (joinHosts hosts) with
  | error e => rfl
  | ok names =>
    simp only [optional, methodOf, lookup]
    rfl

theorem ofHosts_eq_ofProperties (hn : hosts ≠ []) (hc : ∀ h ∈ hosts, ',' ∉ h.toList) :
    ofHosts hosts credentials = ofProperties (plainProperties hosts credentials) := by
  have hp := pieces_joinHosts hn hc
  have hcomma : hosts.findIdx? hasComma = none := by
    rw [List.findIdx?_eq_none_iff]
    simpa [hasComma] using hc
  rw [ofProperties_plainProperties]
  cases hb : hosts.findIdx? Text.isBlankText with
  | some i =>
    have he := readHosts_eq_error (hp.symm ▸ hb)
    rw [ofHosts_eq_blankHost hb, he]
    rfl
  | none =>
    obtain ⟨names, hr, hnames⟩ := readHosts_eq_ok (hp.symm ▸ hb)
    rw [hp] at hnames
    rw [ofHosts_eq_plain hn hb hcomma hnames, hr]
    rfl

/-- What becomes of a host list: it is refused for its first blank entry, else for its first entry
with a comma, or it is accepted as it is but for blanks around the entries. -/
inductive Verdict (hosts : List String) (credentials : Credentials) :
    Except ConfigError Config → Prop where
  | noHosts (hn : hosts = []) : Verdict hosts credentials (.error .noHosts)
  | blankHost {i : Nat} (hi : IsLeast (blanks hosts) i) :
    Verdict hosts credentials (.error (.blankHost i (joinHosts hosts)))
  | hostWithComma {i : Nat} (hb : blanks hosts = ∅) (hi : IsLeast (commas hosts) i) :
    Verdict hosts credentials (.error (.hostWithComma i (joinHosts hosts)))
  | accepted {names : HostList} (hn : hosts ≠ []) (hb : blanks hosts = ∅) (hc : commas hosts = ∅)
    (h : names.1 = hosts.map Text.trim) : Verdict hosts credentials (.ok (plain names credentials))

theorem verdict_ofHosts (hosts : List String) (credentials : Credentials) :
    Verdict hosts credentials (ofHosts hosts credentials) := by
  by_cases hn : hosts = []
  · subst hn
    exact .noHosts rfl
  rcases findIdx?_isBlankText_cases hosts with ⟨i, hb, hi⟩ | ⟨hb, hblanks⟩
  · rw [ofHosts_eq_blankHost hb]
    exact .blankHost hi
  rcases findIdx?_hasComma_cases hosts with ⟨i, hc, hi⟩ | ⟨hc, hcommas⟩
  · rw [ofHosts_eq_hostWithComma hb hc]
    exact .hostWithComma hblanks hi
  · have hp := pieces_joinHosts hn (indicesOf_eq_empty_iff.1 hcommas)
    obtain ⟨names, -, hnames⟩ := readHosts_eq_ok (hp.symm ▸ hb)
    rw [hp] at hnames
    rw [ofHosts_eq_plain hn hb hc hnames]
    exact .accepted hn hblanks hcommas hnames

/-- A list of hosts makes the same configuration, or the same error, as the joined list does, unless
a host holds a comma. Then it is refused, so no list that is accepted is split differently when it
is read. -/
theorem ofHosts_agrees (hosts : List String) (credentials : Credentials) :
    Verdict hosts credentials (ofHosts hosts credentials) ∧
    (hosts ≠ [] → (∀ h ∈ hosts, ',' ∉ h.toList) →
      ofHosts hosts credentials = ofProperties (plainProperties hosts credentials)) ∧
    ∀ c, ofHosts hosts credentials = .ok c →
      Text.pieces ',' (joinHosts hosts) = hosts ∧
        Text.pieces ',' (joinHosts c.hosts) = c.hosts := by
  have hv := verdict_ofHosts hosts credentials
  refine ⟨hv, ofHosts_eq_ofProperties, fun c h => ?_⟩
  have hjoined := pieces_joinHosts c.hosts_ne_nil fun h hm => (c.isHost h hm).no_comma
  rw [h] at hv
  cases hv with
  | accepted hn _ hc _ => exact ⟨pieces_joinHosts hn (indicesOf_eq_empty_iff.1 hc), hjoined⟩

/-- A blank entry is refused where it stands, also when it is read from the joined list. -/
theorem ofHosts_agrees_blank :
    ["a", " "] ≠ [] ∧ (∀ h ∈ ["a", " "], ',' ∉ h.toList) ∧
      ofProperties (plainProperties ["a", " "] { user := "u", sshKey := "k" }) =
        .error (.blankHost 1 "a, ") := by
  have hn : ["a", " "] ≠ [] := by decide
  have hc : ∀ h ∈ ["a", " "], ',' ∉ h.toList := by decide
  have hb : ["a", " "].findIdx? Text.isBlankText = some 1 := by decide
  obtain ⟨-, hagree, -⟩ := ofHosts_agrees ["a", " "] { user := "u", sshKey := "k" }
  refine ⟨hn, hc, ?_⟩
  rw [← hagree hn hc, ofHosts_eq_blankHost hb]
  rfl

end Config
end HostRotation
