import HostRotation.Config.Properties
import HostRotation.Proofs.Text.Numerals

namespace HostRotation

theorem IsHost.not_blank {name : String} (h : IsHost name) : Text.isBlankText name = false := by
  rw [← Bool.not_eq_true, ← Text.trim_eq_empty_iff, h.trimmed]
  exact h.ne_empty

namespace Config

variable {value : String}

theorem pieces_joinHosts {hosts : List String} (hn : hosts ≠ [])
    (hc : ∀ h ∈ hosts, ',' ∉ h.toList) : Text.pieces ',' (joinHosts hosts) = hosts :=
  Text.pieces_intercalate hn hc

theorem readHosts_eq_error {i : Nat}
    (h : (Text.pieces ',' value).findIdx? Text.isBlankText = some i) :
    readHosts value = .error (.blankHost i value) := by
  rw [readHosts]
  split
  · next j hj =>
    rw [h] at hj
    rw [Option.some.inj hj]
  · next hn =>
    rw [h] at hn
    cases hn

theorem readHosts_eq_ok (h : (Text.pieces ',' value).findIdx? Text.isBlankText = none) :
    ∃ hosts, readHosts value = .ok hosts ∧
      hosts.1 = (Text.pieces ',' value).map Text.trim := by
  rw [readHosts]
  split
  · next j hj =>
    rw [h] at hj
    cases hj
  · exact ⟨_, rfl, rfl⟩

theorem readHosts_joinHosts (hosts : HostList) : readHosts (joinHosts hosts.1) = .ok hosts := by
  obtain ⟨names, hn, hh⟩ := hosts
  have hp := pieces_joinHosts hn fun h hm => (hh h hm).no_comma
  have hb : (Text.pieces ',' (joinHosts names)).findIdx? Text.isBlankText = none := by
    rw [hp, List.findIdx?_eq_none_iff]
    exact fun h hm => (hh h hm).not_blank
  have ht : names.map Text.trim = names :=
    (List.map_congr_left fun h hm => (hh h hm).trimmed).trans names.map_id'
  obtain ⟨hosts, hr, he⟩ := readHosts_eq_ok hb
  rw [hp, ht] at he
  exact hr.trans (congrArg Except.ok (Subtype.ext he))

theorem readTimeout_numeral {t : UInt64} (h : 0 < t) :
    readTimeout (Text.numeral t.toNat) = .ok ⟨t, h⟩ := by
  simp [readTimeout, Text.readUInt64_numeral, h]

theorem readPort_numeral {p : UInt16} (h : 0 < p) :
    readPort (Text.numeral p.toNat) = .ok ⟨p, h⟩ := by
  simp [readPort, Text.readUInt16_numeral, h]

end Config
end HostRotation
