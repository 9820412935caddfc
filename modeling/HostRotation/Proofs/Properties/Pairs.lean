import Mathlib.Data.List.TakeWhile
import HostRotation.Properties.Layers
import HostRotation.Proofs.Traversals

namespace HostRotation.Properties

/-- A pair that sets a key to a value: the first equals sign of the pair stands between them. -/
def Sets (pair key value : String) : Prop :=
  ∃ name, pair = name ++ "=" ++ value ∧ '=' ∉ name.toList ∧ Text.trim name ≠ "" ∧
    Text.trim name = key

variable {pair key value : String} {pairs : List String}

theorem ofPair_append {name : String} (h : '=' ∉ name.toList) (value : String) :
    ofPair (name ++ "=" ++ value) =
      if Text.isBlankText name then .error (.badPair (name ++ "=" ++ value))
      else .ok (Text.trim name, value) := by
  have hpair : (name ++ "=" ++ value).toList = name.toList ++ '=' :: value.toList := by simp
  have hname : ∀ c ∈ name.toList, decide (c ≠ '=') = true := by
    intro c hc
    exact decide_eq_true fun he => h (he ▸ hc)
  have htake : (name ++ "=" ++ value).toList.takeWhile (· ≠ '=') = name.toList := by
    rw [hpair, List.takeWhile_append_of_pos hname]
    simp
  have hdrop : (name ++ "=" ++ value).toList.dropWhile (· ≠ '=') = '=' :: value.toList := by
    rw [hpair, List.dropWhile_append_of_pos hname]
    simp
  simp only [ofPair, htake, hdrop, String.ofList_toList]

theorem Sets.ofPair (h : Sets pair key value) : ofPair pair = .ok (key, value) := by
  obtain ⟨name, rfl, hname, hblank, rfl⟩ := h
  rw [ofPair_append hname, if_neg fun hb => hblank (Text.trim_eq_empty_iff.2 hb)]

theorem ofPair_eq_error (h : ∀ key value, ¬Sets pair key value) :
    ofPair pair = .error (.badPair pair) := by
  by_cases hmem : '=' ∈ pair.toList
  · obtain ⟨name, value, hsplit, hname⟩ := List.eq_append_cons_of_mem hmem
    have hpair : pair = String.ofList name ++ "=" ++ String.ofList value := by
      rw [← String.toList_inj, hsplit]
      simp
    have hno : '=' ∉ (String.ofList name).toList := by rwa [String.toList_ofList]
    subst hpair
    rw [ofPair_append hno, if_pos]
    by_contra hb
    exact h _ _ ⟨_, rfl, hno, fun he => hb (Text.trim_eq_empty_iff.1 he), rfl⟩
  · have hdrop : pair.toList.dropWhile (· ≠ '=') = [] := by
      rw [List.dropWhile_eq_nil_iff]
      exact fun c hc => decide_eq_true fun he => hmem (he ▸ hc)
    rw [ofPair, hdrop]

theorem ofPair_eq_ok_iff : ofPair pair = .ok (key, value) ↔ Sets pair key value := by
  refine ⟨fun h => ?_, Sets.ofPair⟩
  by_contra hno
  by_cases hs : ∃ k v, Sets pair k v
  · obtain ⟨k, v, hs⟩ := hs
    rw [hs.ofPair] at h
    cases h
    exact hno hs
  · rw [ofPair_eq_error fun k v hs' => hs ⟨k, v, hs'⟩] at h
    cases h

theorem foldlM_override (p : Properties) (pairs : List String) :
    pairs.foldlM override p = (pairs.mapM ofPair).map fun es => p.insertMany es := by
  induction pairs generalizing p with
  | nil => simp [pure, Except.pure, Except.map]
  | cons pair pairs ih =>
    cases h : ofPair pair with
    | error e =>
      have ho : override p pair = .error e := by rw [override, h, Except.map]
      rw [List.foldlM_cons, ho, mapM_cons_of_error h]
      rfl
    | ok e =>
      have ho : override p pair = .ok (p.insert e.1 e.2) := by rw [override, h, Except.map]
      rw [List.foldlM_cons, ho, mapM_cons_of_ok h]
      refine (ih _).trans ?_
      cases pairs.mapM ofPair with
      | error _ => rfl
      | ok es => exact congrArg Except.ok Std.ExtTreeMap.insertMany_cons.symm

def entries (pairs : List String) : List (String × String) :=
  pairs.filterMap fun pair => (ofPair pair).toOption

theorem toOption_ofPair (pair key value : String) :
    (ofPair pair).toOption = some (key, value) ↔ Sets pair key value := by
  rw [← ofPair_eq_ok_iff]
  cases ofPair pair <;> simp [Except.toOption]

theorem lookup_entries_eq_none_iff :
    (entries pairs).reverse.lookup key = none ↔ ∀ pair ∈ pairs, ∀ value, ¬Sets pair key value :=
  lookup_reverse_filterMap_eq_none_iff toOption_ofPair

theorem lookup_entries_eq_some_iff :
    (entries pairs).reverse.lookup key = some value ↔ LastWrite Sets pairs key value :=
  lookup_reverse_filterMap_eq_some_iff toOption_ofPair

theorem foldlM_override_of_sets (p : Properties)
    (h : ∀ pair ∈ pairs, ∃ key value, Sets pair key value) :
    pairs.foldlM override p = .ok (p.insertMany (entries pairs)) := by
  rw [foldlM_override, entries,
    mapM_of_forall_ok (g := fun pair => (ofPair pair).toOption)]
  · rfl
  · intro pair hpair
    obtain ⟨key, value, hs⟩ := h pair hpair
    exact ⟨(key, value), hs.ofPair, (toOption_ofPair pair key value).2 hs⟩

end HostRotation.Properties
