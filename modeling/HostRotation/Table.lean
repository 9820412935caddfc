import Std.Data.ExtTreeMap

namespace HostRotation

/-- Finite tables with texts as keys. Tables with the same entries are equal, and list them in the
order of their keys. -/
abbrev Table (α : Type) : Type :=
  Std.ExtTreeMap String α compare

namespace Table

theorem getElem?_insertMany {α : Type} (t : Table α) (entries : List (String × α)) (key : String) :
    (t.insertMany entries)[key]? = (entries.reverse.lookup key).or t[key]? := by
  induction entries generalizing t with
  | nil => simp
  | cons e entries ih =>
    obtain ⟨k, v⟩ := e
    rw [Std.ExtTreeMap.insertMany_cons, ih, List.reverse_cons, List.lookup_append,
      Std.ExtTreeMap.getElem?_insert, Option.or_assoc]
    by_cases hk : k = key
    · simp [hk]
    · simp [hk, List.lookup_cons, beq_eq_false_iff_ne.2 (Ne.symm hk)]

theorem getElem?_ofList {α : Type} (entries : List (String × α)) (key : String) :
    (Std.ExtTreeMap.ofList entries compare)[key]? = entries.reverse.lookup key := by
  rw [Std.ExtTreeMap.ofList_eq_insertMany_empty, getElem?_insertMany]
  simp

end Table
end HostRotation
