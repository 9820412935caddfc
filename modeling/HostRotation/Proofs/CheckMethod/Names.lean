import Mathlib.Data.List.Basic
import HostRotation.CheckMethod

namespace HostRotation.CheckMethod

/-- A text that is the name of a method, but for blanks around it and the case of its letters. -/
def Named (s : String) (m : CheckMethod) : Prop :=
  Text.sameName m.name (Text.trim s)

variable {s : String} {m m' : CheckMethod}

theorem mem_all (m : CheckMethod) : m ∈ all := by
  cases m <;> decide

theorem Named.unique (h : Named s m) (h' : Named s m') : m = m' := by
  have he : Text.sameName m.name m'.name :=
    Text.sameName_iff.2 ((Text.sameName_iff.1 h).trans (Text.sameName_iff.1 h').symm)
  revert he
  cases m <;> cases m' <;> decide

theorem find?_sameName_eq_some_iff {order : List CheckMethod} (h : ∀ m, m ∈ order) :
    (order.find? fun m => Text.sameName m.name (Text.trim s)) = some m ↔ Named s m := by
  have sound {m : CheckMethod}
      (hf : (order.find? fun m => Text.sameName m.name (Text.trim s)) = some m) : Named s m := by
    simpa only [Named] using List.find?_some hf
  refine ⟨sound, fun hm => ?_⟩
  cases hf : order.find? fun m => Text.sameName m.name (Text.trim s) with
  | none =>
    rw [List.find?_eq_none] at hf
    exact absurd hm (hf m (h m))
  | some m' => rw [hm.unique (sound hf)]

theorem ofName?_eq_some_iff : ofName? s = some m ↔ Named s m :=
  find?_sameName_eq_some_iff mem_all

theorem ofName?_eq_none_iff : ofName? s = none ↔ ∀ m, ¬Named s m := by
  simp only [Option.eq_none_iff_forall_ne_some, Ne, ofName?_eq_some_iff]

theorem find?_sameName {order : List CheckMethod} (h : ∀ m, m ∈ order) (s : String) :
    (order.find? fun m => Text.sameName m.name (Text.trim s)) = ofName? s := by
  apply Option.ext
  intro m
  rw [find?_sameName_eq_some_iff h, ofName?_eq_some_iff]

theorem ofName_eq_of_named (h : Named s m) : ofName s = m := by
  rw [ofName, ofName?_eq_some_iff.2 h, Option.getD_some]

theorem ofName_eq_unchecked_iff :
    ofName s = .unchecked ↔ (∀ m, ¬Named s m) ∨ Named s .unchecked := by
  rw [ofName, ← ofName?_eq_none_iff, ← ofName?_eq_some_iff]
  cases ofName? s <;> simp

theorem named_name (m : CheckMethod) : Named m.name m := by
  have h : Text.sameName m.name (Text.trim m.name) := by cases m <;> decide
  exact h

end HostRotation.CheckMethod
