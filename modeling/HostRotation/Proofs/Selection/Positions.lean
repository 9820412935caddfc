import Mathlib.Data.List.Nodup
import Mathlib.Data.List.Perm.Subperm
import Mathlib.Data.Nat.ModEq
import HostRotation.Selection.Walk

namespace HostRotation
namespace Config

variable (c : Config) (cursor : UInt64)

theorem map_index_stops :
    (c.stops cursor).map Stop.index = (List.range c.hosts.length).map (c.position cursor) := by
  rw [stops_eq_map_range, List.map_map]
  rfl

theorem position_inj {j k : Nat} (hj : j < c.hosts.length) (hk : k < c.hosts.length)
    (h : c.position cursor j = c.position cursor k) : j = k := by
  have he : j ≡ k [MOD c.hosts.length] := Nat.ModEq.add_left_cancel' _ h
  exact he.eq_of_lt_of_lt hj hk

theorem nodup_positions : ((List.range c.hosts.length).map (c.position cursor)).Nodup := by
  apply List.Nodup.map_on _ List.nodup_range
  intro j hj k hk h
  exact c.position_inj cursor (List.mem_range.1 hj) (List.mem_range.1 hk) h

theorem positions_perm :
    ((List.range c.hosts.length).map (c.position cursor)).Perm (List.range c.hosts.length) := by
  apply List.Subperm.perm_of_length_le
  · apply (c.nodup_positions cursor).subperm
    intro i hi
    obtain ⟨k, -, rfl⟩ := List.mem_map.1 hi
    exact List.mem_range.2 (c.position_lt cursor k)
  · simp

theorem mem_stops_iff {stop : Stop} :
    stop ∈ c.stops cursor ↔ c.hosts[stop.index]? = some stop.host := by
  rw [stops_eq_map_range]
  constructor
  · intro h
    obtain ⟨k, -, rfl⟩ := List.mem_map.1 h
    exact List.getElem?_eq_getElem (c.position_lt cursor k)
  · intro h
    obtain ⟨hi, hh⟩ := List.getElem?_eq_some_iff.1 h
    have hm := (c.positions_perm cursor).mem_iff.2 (List.mem_range.2 hi)
    obtain ⟨k, hk, hp⟩ := List.mem_map.1 hm
    exact List.mem_map.2 ⟨k, hk, by rw [stop_eq hi hp, hh]⟩

def twoHosts : Config where
  hosts := ["a", "b"]
  credentials := { user := "u", sshKey := "k" }
  hosts_ne_nil := by decide
  isHost := by
    intro h hm
    have ha : IsHost "a" := ⟨by decide, by decide, by decide⟩
    have hb : IsHost "b" := ⟨by decide, by decide, by decide⟩
    simp at hm
    rcases hm with rfl | rfl
    · exact ha
    · exact hb

end Config
end HostRotation
