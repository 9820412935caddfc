import Mathlib.Algebra.BigOperators.Group.List.Basic
import Mathlib.Algebra.GroupWithZero.Nat
import Mathlib.Data.List.Nodup
import HostRotation.Table

namespace HostRotation

variable {α β : Type}

theorem of_getElem?_snoc {l : List α} {i : Nat} {x y : α} (h : (l ++ [y])[i]? = some x) :
    l[i]? = some x ∨ x = y := by
  rw [List.getElem?_append] at h
  split at h
  · exact .inl h
  · rw [List.getElem?_singleton] at h
    split at h
    · exact .inr (Option.some.inj h).symm
    · cases h

theorem of_getElem?_set {l : List α} {i j : Nat} {x y : α} (h : (l.set i y)[j]? = some x) :
    l[j]? = some x ∨ i = j ∧ x = y := by
  rw [List.getElem?_set] at h
  split at h
  · next hi =>
    split at h
    · exact .inr ⟨hi, (Option.some.inj h).symm⟩
    · cases h
  · exact .inl h

theorem map_set_eq_self {f : α → β} {l : List α} {i : Nat} {x y : α} (hi : l[i]? = some x)
    (hxy : f y = f x) : (l.set i y).map f = l.map f := by
  apply List.ext_getElem?
  intro j
  rw [List.getElem?_map, List.getElem?_map, List.getElem?_set]
  split
  · next hij =>
    subst j
    rw [if_pos (List.getElem?_eq_some_iff.1 hi).1, hi, Option.map_some, Option.map_some, hxy]
  · rfl

theorem sum_map_set_lt {f : α → Nat} {l : List α} {i : Nat} {x y : α} (hi : l[i]? = some x)
    (hxy : f y < f x) : ((l.set i y).map f).sum < (l.map f).sum := by
  induction l generalizing i with
  | nil => cases hi
  | cons z l ih =>
    cases i with
    | zero =>
      obtain rfl : z = x := Option.some.inj hi
      simpa using hxy
    | succ i => simpa using ih hi

/-- What a member gives up is gone from what all members have. -/
theorem perm_flatMap_set {f : α → List β} {l : List α} {i : Nat} {x y : α} {bs : List β}
    (hi : l[i]? = some x) (hxy : f x = bs ++ f y) :
    (l.flatMap f).Perm (bs ++ (l.set i y).flatMap f) := by
  induction l generalizing i with
  | nil => cases hi
  | cons z l ih =>
    cases i with
    | zero =>
      obtain rfl : z = x := Option.some.inj hi
      rw [List.set_cons_zero, List.flatMap_cons, List.flatMap_cons, hxy, List.append_assoc]
    | succ i =>
      rw [List.set_cons_succ, List.flatMap_cons, List.flatMap_cons]
      have hrest := (ih hi).append_left (f z)
      refine hrest.trans ?_
      rw [← List.append_assoc, ← List.append_assoc]
      exact List.perm_append_comm.append_right _

theorem count_flatMap_of_nodup [DecidableEq β] {f : α → List β}
    (hf : ∀ x, (f x).Nodup) (l : List α) (b : β) :
    (l.flatMap f).count b = l.countP fun x => b ∈ f x := by
  induction l with
  | nil => rfl
  | cons x l ih =>
    rw [List.flatMap_cons, List.count_append, ih, List.countP_cons, (hf x).count]
    simp only [decide_eq_true_eq]
    omega

theorem sum_map_ite_eq_count [DecidableEq α] (x : α) (keys : List α) :
    (keys.map fun k => if x = k then 1 else 0).sum = keys.count x := by
  induction keys with
  | nil => rfl
  | cons k keys ih =>
    rw [List.map_cons, List.sum_cons, ih, List.count_cons, Nat.add_comm]
    simp only [beq_iff_eq, eq_comm (a := x)]

/-- Members of a list are counted once each over a number of values that they are among. -/
theorem sum_count_eq_countP [DecidableEq α] {keys : List α} (hk : keys.Nodup) (l : List α) :
    (keys.map fun k => l.count k).sum = l.countP (· ∈ keys) := by
  induction l with
  | nil => simp
  | cons x l ih =>
    have hone : (keys.map fun k => if x = k then 1 else 0).sum = if x ∈ keys then 1 else 0 := by
      rw [sum_map_ite_eq_count, hk.count]
    simp only [List.count_cons, List.sum_map_add, List.countP_cons, beq_iff_eq, decide_eq_true_eq,
      ih, hone]

namespace Table

variable {t : Table α} {key other : String} {v w : α}

theorem getElem?_keys_idxOf (h : t[key]? = some v) : t.keys[t.keys.idxOf key]? = some key := by
  apply List.getElem?_idxOf
  rw [Std.ExtTreeMap.mem_keys, ← Std.ExtTreeMap.isSome_getElem?_iff_mem, h]
  rfl

theorem of_getElem?_insert (h : (t.insert key v)[other]? = some w) :
    key = other ∧ v = w ∨ t[other]? = some w := by
  rw [Std.ExtTreeMap.getElem?_insert] at h
  split at h
  · next hkey => exact .inl ⟨Std.LawfulEqCmp.eq_of_compare hkey, Option.some.inj h⟩
  · exact .inr h

theorem getElem?_insert_of_none (hkey : t[key]? = none) (h : t[other]? = some w) :
    (t.insert key v)[other]? = some w := by
  have hne : key ≠ other := by
    rintro rfl
    rw [hkey] at h
    cases h
  simp [Std.ExtTreeMap.getElem?_insert, hne, h]

theorem ofList_eq_of_perm {t : Table α} {entries : List (String × α)}
    (h : entries.Perm t.toList) : Std.ExtTreeMap.ofList entries compare = t := by
  have hdistinct : entries.Pairwise fun a b => ¬compare a.1 b.1 = .eq :=
    t.distinct_keys_toList.perm h.symm fun hab hba => hab (Std.OrientedCmp.eq_symm hba)
  have hmem (key : String) (value : α) : (key, value) ∈ entries ↔ t[key]? = some value := by
    rw [h.mem_iff, Std.ExtTreeMap.mem_toList_iff_getElem?_eq_some]
  apply Std.ExtTreeMap.ext_getElem?
  intro key
  cases hkey : t[key]? with
  | some value =>
    exact Std.ExtTreeMap.getElem?_ofList_of_mem (Std.ReflCmp.compare_self) hdistinct
      ((hmem key value).2 hkey)
  | none =>
    apply Std.ExtTreeMap.getElem?_ofList_of_contains_eq_false
    rw [List.contains_eq_mem, decide_eq_false_iff_not]
    intro hin
    obtain ⟨⟨k, value⟩, hentry, rfl⟩ := List.mem_map.1 hin
    rw [(hmem k value).1 hentry] at hkey
    cases hkey

theorem sum_count_toList (t : Table α) (l : List String) :
    (t.toList.map fun e => l.count e.1).sum = l.countP (· ∈ t) := by
  calc (t.toList.map fun e => l.count e.1).sum
    _ = (t.keys.map fun h => l.count h).sum := by
      rw [← Std.ExtTreeMap.map_fst_toList_eq_keys, List.map_map]
      rfl
    _ = l.countP (· ∈ t.keys) := sum_count_eq_countP Std.ExtTreeMap.nodup_keys l
    _ = l.countP (· ∈ t) := by
      apply List.countP_congr
      intro h _
      rw [decide_eq_true_iff, decide_eq_true_iff, Std.ExtTreeMap.mem_keys]

end Table
end HostRotation
