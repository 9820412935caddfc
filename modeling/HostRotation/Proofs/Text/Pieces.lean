import Mathlib.Data.List.Basic
import HostRotation.Text.Pieces

namespace HostRotation.Text

variable {separator : Char} {s s' t t' gap : String}

theorem pieces_append (separator : Char) (s t : String) :
    pieces separator (s ++ String.singleton separator ++ t) =
      pieces separator s ++ pieces separator t := by
  have hsplit := List.splitOnP_append_cons (p := (· == separator)) s.toList t.toList
    (beq_self_eq_true separator)
  rw [pieces, String.append_assoc, String.toList_append, String.toList_append,
    String.toList_singleton, List.singleton_append, List.splitOn, hsplit, List.map_append]
  rfl

theorem pieces_of_not_mem (h : separator ∉ s.toList) : pieces separator s = [s] :=
  pieces_intercalate (List.cons_ne_nil s []) (List.forall_mem_singleton.2 h)

theorem append_singleton_inj (ht : separator ∉ t.toList) (ht' : separator ∉ t'.toList)
    (h : s ++ String.singleton separator ++ t = s' ++ String.singleton separator ++ t') :
    s = s' ∧ t = t' := by
  have hpieces := congrArg (pieces separator) h
  rw [pieces_append, pieces_append, pieces_of_not_mem ht, pieces_of_not_mem ht'] at hpieces
  obtain rfl : t = t' := (List.append_singleton_inj.1 hpieces).2
  rw [String.append_left_inj, String.append_left_inj] at h
  exact ⟨h, rfl⟩

theorem pieces_intercalate_gap {first : String} {rest : List String}
    (hgap : separator ∉ gap.toList) (h : ∀ e ∈ first :: rest, separator ∉ e.toList) :
    pieces separator (String.intercalate (String.singleton separator ++ gap) (first :: rest)) =
      first :: rest.map (gap ++ ·) := by
  induction rest generalizing first with
  | nil => exact pieces_of_not_mem (h first List.mem_cons_self)
  | cons second rest ih =>
    obtain ⟨hfirst, hsecond, hrest⟩ : separator ∉ first.toList ∧ separator ∉ second.toList ∧
        ∀ e ∈ rest, separator ∉ e.toList := by simpa using h
    have hgapped : ∀ e ∈ (gap ++ second) :: rest, separator ∉ e.toList := by
      simpa [hgap, hsecond] using hrest
    have hjoin : String.intercalate (String.singleton separator ++ gap) (first :: second :: rest) =
        first ++ String.singleton separator ++
          String.intercalate (String.singleton separator ++ gap) ((gap ++ second) :: rest) := by
      rw [String.intercalate_cons_cons, String.intercalate_cons_append]
      simp only [String.append_assoc]
    rw [hjoin, pieces_append, pieces_of_not_mem hfirst, ih hgapped]
    rfl

theorem intercalate_gap_inj {entries entries' : List String} (hgap : separator ∉ gap.toList)
    (hn : entries ≠ []) (hn' : entries' ≠ []) (h : ∀ e ∈ entries, separator ∉ e.toList)
    (h' : ∀ e ∈ entries', separator ∉ e.toList)
    (he : String.intercalate (String.singleton separator ++ gap) entries =
      String.intercalate (String.singleton separator ++ gap) entries') : entries = entries' := by
  obtain ⟨first, rest, rfl⟩ := List.exists_cons_of_ne_nil hn
  obtain ⟨first', rest', rfl⟩ := List.exists_cons_of_ne_nil hn'
  have hpieces := congrArg (pieces separator) he
  rw [pieces_intercalate_gap hgap h, pieces_intercalate_gap hgap h'] at hpieces
  obtain ⟨hfirst, hrest⟩ := List.cons.inj hpieces
  have hinj : Function.Injective (gap ++ ·) := fun _ _ => (String.append_right_inj gap).1
  rw [hfirst, List.map_injective_iff.2 hinj hrest]

theorem pieces_join_lines (texts : List String) :
    pieces '\n' (String.join (texts.map (· ++ "\n"))) = texts.flatMap (pieces '\n') ++ [""] := by
  induction texts with
  | nil => rfl
  | cons text texts ih =>
    have hpieces := pieces_append '\n' text (String.join (texts.map (· ++ "\n")))
    rw [ih] at hpieces
    rw [List.map_cons, String.join_cons, List.flatMap_cons, List.append_assoc]
    exact hpieces

/-- Texts are their own pieces exactly when none of them holds the separator. -/
theorem flatMap_pieces_eq_self_iff {texts : List String} :
    texts.flatMap (pieces separator) = texts ↔ ∀ text ∈ texts, separator ∉ text.toList := by
  constructor
  · intro h text ht
    rw [← h] at ht
    obtain ⟨_, -, hpiece⟩ := List.mem_flatMap.1 ht
    exact not_mem_of_mem_pieces hpiece
  · intro h
    induction texts with
    | nil => rfl
    | cons text texts ih =>
      obtain ⟨htext, htexts⟩ := List.forall_mem_cons.1 h
      rw [List.flatMap_cons, pieces_of_not_mem htext, ih htexts]
      rfl

end HostRotation.Text
