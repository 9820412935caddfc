import Mathlib.Data.Int.CardIntervalMod

namespace HostRotation.Residues

variable {n i : Nat}

/-- How far it is up from a number to the next one with a residue. -/
def distance (n start i : Nat) : Nat :=
  (n - start % n + i) % n

theorem distance_lt (hn : 0 < n) (start i : Nat) : distance n start i < n :=
  Nat.mod_lt _ hn

theorem add_distance (hi : i < n) (start : Nat) : (start + distance n start i) % n = i := by
  have hlt := Nat.mod_lt start (Nat.zero_lt_of_lt hi)
  have hdiv := Nat.div_add_mod start n
  have he : start + (n - start % n + i) = i + n * (start / n + 1) := by
    rw [Nat.mul_add]
    omega
  rw [distance, Nat.add_mod_mod, he, Nat.add_mul_mod_self_left, Nat.mod_eq_of_lt hi]

def occurrences (n i start k : Nat) : Nat :=
  Nat.count (fun j => (start + j) % n = i) k

theorem occurrences_eq (hi : i < n) (start k : Nat) :
    occurrences n i start k = k / n + if distance n start i < k % n then 1 else 0 := by
  have hn : 0 < n := Nat.zero_lt_of_lt hi
  have hmod (j : Nat) : (start + j) % n = i ↔ j ≡ distance n start i [MOD n] := by
    have hd := add_distance hi start
    constructor
    · intro h
      exact Nat.ModEq.add_left_cancel' start (h.trans hd.symm)
    · intro h
      rw [← hd]
      exact h.add_left start
  have hcount := Nat.count_modEq_card k hn (distance n start i)
  rw [Nat.mod_eq_of_lt (distance_lt hn start i)] at hcount
  simpa only [occurrences, hmod] using hcount

theorem le_occurrences (hi : i < n) (start k : Nat) : k / n ≤ occurrences n i start k := by
  rw [occurrences_eq hi]
  exact Nat.le_add_right _ _

theorem occurrences_le (hi : i < n) (start k : Nat) : occurrences n i start k ≤ k / n + 1 := by
  rw [occurrences_eq hi]
  split <;> omega

/-- How often a residue occurs among consecutive numbers that wrap at a modulus. -/
def wrappedOccurrences (M n i start k : Nat) : Nat :=
  Nat.count (fun j => (start + j) % M % n = i) k

theorem wrappedOccurrences_eq {M start k : Nat} (h : start + k ≤ M ∨ n ∣ M) :
    wrappedOccurrences M n i start k = occurrences n i start k := by
  apply List.countP_congr
  intro j hj
  have hj := List.mem_range.1 hj
  have he : (start + j) % M % n = (start + j) % n := by
    rcases h with h | h
    · rw [Nat.mod_eq_of_lt (show start + j < M by omega)]
    · exact Nat.mod_mod_of_dvd _ h
  simp only [he]

theorem wrappedOccurrences_eq_add {M start k : Nat} (hs : start ≤ M) (hw : M ≤ start + k)
    (hk : k ≤ M) :
    wrappedOccurrences M n i start k =
      occurrences n i start (M - start) + occurrences n i 0 (start + k - M) := by
  have hsplit : k = M - start + (start + k - M) := by omega
  rw [wrappedOccurrences, hsplit, Nat.count_add, ← hsplit]
  congr 1
  · exact wrappedOccurrences_eq (.inl (by omega))
  · apply List.countP_congr
    intro j hj
    have hj := List.mem_range.1 hj
    have he : (start + (M - start + j)) % M = j := by
      rw [show start + (M - start + j) = j + M by omega, Nat.add_mod_right]
      exact Nat.mod_eq_of_lt (by omega)
    simp only [he, Nat.zero_add]

theorem occurrences_le_add_one {j : Nat} (hi : i < n) (hj : j < n) (start k : Nat) :
    occurrences n i start k ≤ occurrences n j start k + 1 :=
  (occurrences_le hi start k).trans (Nat.succ_le_succ (le_occurrences hj start k))

theorem wrappedOccurrences_le_add_two {M start k j : Nat} (hi : i < n) (hj : j < n)
    (hs : start ≤ M) (hk : k ≤ M) :
    wrappedOccurrences M n i start k ≤ wrappedOccurrences M n j start k + 2 := by
  by_cases hw : M ≤ start + k
  · rw [wrappedOccurrences_eq_add hs hw hk, wrappedOccurrences_eq_add hs hw hk]
    have hbefore := occurrences_le_add_one hi hj start (M - start)
    have hafter := occurrences_le_add_one hi hj 0 (start + k - M)
    omega
  · have hle : start + k ≤ M := by omega
    rw [wrappedOccurrences_eq (.inl hle), wrappedOccurrences_eq (.inl hle)]
    exact (occurrences_le_add_one hi hj start k).trans (Nat.le_succ _)

theorem distances_perm (hi : i < n) (start : Nat) :
    ((List.range n).map fun j => distance n (start + j) i).Perm (List.range n) := by
  apply List.Subperm.perm_of_length_le
  · apply List.Nodup.subperm
    · apply List.Nodup.map_on _ List.nodup_range
      intro j hj k hk h
      have hd : start + j + distance n (start + j) i ≡
          start + k + distance n (start + k) i [MOD n] := by
        rw [Nat.ModEq, add_distance hi, add_distance hi]
      rw [h] at hd
      have he : j ≡ k [MOD n] := Nat.ModEq.add_left_cancel' _ (Nat.ModEq.add_right_cancel' _ hd)
      exact he.eq_of_lt_of_lt (List.mem_range.1 hj) (List.mem_range.1 hk)
    · intro d hd
      obtain ⟨j, -, rfl⟩ := List.mem_map.1 hd
      exact List.mem_range.2 (distance_lt (Nat.zero_lt_of_lt hi) _ _)
  · simp

theorem count_lt {g : Nat} (hg : g ≤ n) : Nat.count (· < g) n = g := by
  obtain ⟨k, rfl⟩ := Nat.exists_eq_add_of_le hg
  rw [Nat.count_add, Nat.count_of_forall fun _ h => h, Nat.count_of_forall_not (by simp)]
  rfl

theorem count_distance_window {g : Nat} (hi : i < n) (hg : g ≤ n) (start : Nat) :
    Nat.count (fun j => distance n (start + j) i < g) n = g := by
  have hp := (distances_perm hi start).countP_eq (fun d => decide (d < g))
  rw [List.countP_map] at hp
  exact hp.trans (count_lt hg)

theorem count_distance {g : Nat} (hi : i < n) (hg : g ≤ n) (start m : Nat) :
    Nat.count (fun j => distance n (start + j) i < g) (m * n) = m * g := by
  induction m generalizing start with
  | zero => simp
  | succ m ih =>
    have hrest := ih (start + n)
    simp only [Nat.add_assoc] at hrest
    rw [Nat.succ_mul, Nat.add_comm (m * n), Nat.count_add, count_distance_window hi hg, hrest,
      Nat.succ_mul, Nat.add_comm]

end HostRotation.Residues
