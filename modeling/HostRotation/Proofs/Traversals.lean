import Mathlib.Data.List.Basic

namespace HostRotation

variable {α β ε : Type}

section

variable {f : α → Except ε β} {l : List α}

theorem mapM_cons_of_error {a : α} {e : ε} (h : f a = .error e) :
    (a :: l).mapM f = .error e := by
  rw [List.mapM_cons, h]
  rfl

theorem mapM_cons_of_ok {a : α} {b : β} (h : f a = .ok b) :
    (a :: l).mapM f = (l.mapM f).map (b :: ·) := by
  rw [List.mapM_cons, h]
  rfl

theorem mapM_of_forall_ok {g : α → Option β} (h : ∀ a ∈ l, ∃ b, f a = .ok b ∧ g a = some b) :
    l.mapM f = .ok (l.filterMap g) := by
  induction l with
  | nil => rfl
  | cons a l ih =>
    obtain ⟨b, hf, hg⟩ := h a List.mem_cons_self
    rw [mapM_cons_of_ok hf, ih fun x hx => h x (List.mem_cons_of_mem a hx),
      List.filterMap_cons_some hg]
    rfl

theorem mapM_of_first_error {before after : List α} {a : α} {e : ε}
    (hbefore : ∀ x ∈ before, ∃ b, f x = .ok b) (ha : f a = .error e) :
    (before ++ a :: after).mapM f = .error e := by
  induction before with
  | nil => exact mapM_cons_of_error ha
  | cons x before ih =>
    obtain ⟨b, hb⟩ := hbefore x List.mem_cons_self
    rw [List.cons_append, mapM_cons_of_ok hb, ih fun y hy => hbefore y (List.mem_cons_of_mem x hy)]
    rfl

theorem forall_ok_or_first_error (f : α → Except ε β) (l : List α) :
    (∀ a ∈ l, ∃ b, f a = .ok b) ∨
      ∃ before a after e, l = before ++ a :: after ∧ (∀ x ∈ before, ∃ b, f x = .ok b) ∧
        f a = .error e := by
  induction l with
  | nil => exact .inl nofun
  | cons x l ih =>
    cases hx : f x with
    | error e => exact .inr ⟨[], x, l, e, rfl, by simp, hx⟩
    | ok b =>
      rcases ih with hl | ⟨before, a, after, e, rfl, hbefore, ha⟩
      · exact .inl (List.forall_mem_cons.2 ⟨⟨b, hx⟩, hl⟩)
      · exact .inr ⟨x :: before, a, after, e, rfl,
          List.forall_mem_cons.2 ⟨⟨b, hx⟩, hbefore⟩, ha⟩

end

/-- The value that the members of a list write last for a key. -/
def LastWrite (writes : α → String → β → Prop) (l : List α) (key : String) (v : β) : Prop :=
  ∃ before a after, l = before ++ a :: after ∧ writes a key v ∧ ∀ b ∈ after, ∀ w, ¬writes b key w

section

variable {writes : α → String → β → Prop} {f : α → Option (String × β)} {l : List α} {key : String}

theorem lookup_reverse_filterMap_eq_none_iff
    (hf : ∀ a key v, f a = some (key, v) ↔ writes a key v) :
    (l.filterMap f).reverse.lookup key = none ↔ ∀ a ∈ l, ∀ v, ¬writes a key v := by
  rw [List.lookup_eq_none_iff]
  constructor
  · intro h a ha v hw
    have hne := h (key, v) (List.mem_reverse.2 (List.mem_filterMap.2 ⟨a, ha, (hf a key v).2 hw⟩))
    simp at hne
  · rintro h ⟨k, v⟩ hkv
    obtain ⟨a, ha, hw⟩ := List.mem_filterMap.1 (List.mem_reverse.1 hkv)
    rw [bne_iff_ne]
    rintro rfl
    exact h a ha v ((hf a key v).1 hw)

theorem lookup_reverse_filterMap_eq_some_iff
    (hf : ∀ a key v, f a = some (key, v) ↔ writes a key v) {v : β} :
    (l.filterMap f).reverse.lookup key = some v ↔ LastWrite writes l key v := by
  constructor
  · intro h
    -- in the reversed list, what comes before the entry was written after it
    obtain ⟨later, earlier, hsplit, hlater⟩ := List.lookup_eq_some_iff.1 h
    have hmap : l.filterMap f = earlier.reverse ++ (key, v) :: later.reverse := by
      rw [← List.reverse_reverse (l.filterMap f), hsplit]
      simp
    obtain ⟨before, rest, rfl, -, hrest⟩ := List.filterMap_eq_append_iff.1 hmap
    obtain ⟨skipped, a, after, rfl, -, ha, hafter⟩ := List.filterMap_eq_cons_iff.1 hrest
    refine ⟨before ++ skipped, a, after, by simp, (hf a key v).1 ha, ?_⟩
    rw [← lookup_reverse_filterMap_eq_none_iff hf, hafter, List.reverse_reverse,
      List.lookup_eq_none_iff]
    exact hlater
  · rintro ⟨before, a, after, rfl, hw, hafter⟩
    have hnone := (lookup_reverse_filterMap_eq_none_iff hf).2 hafter
    rw [List.filterMap_append, List.reverse_append, List.lookup_append,
      List.filterMap_cons_some ((hf a key v).2 hw), List.reverse_cons, List.lookup_append, hnone]
    simp

end

end HostRotation
