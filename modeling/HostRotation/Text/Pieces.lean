namespace HostRotation.Text

/-- The pieces of a text between the separators: one more than there are separators. -/
def pieces (separator : Char) (s : String) : List String :=
  (s.toList.splitOn separator).map String.ofList

theorem not_mem_of_mem_splitOn {x : Char} {cs piece : List Char} (h : piece ∈ cs.splitOn x) :
    x ∉ piece := by
  induction cs generalizing piece with
  | nil => simp_all [List.splitOn_nil]
  | cons c cs ih =>
    rw [List.splitOn_cons_eq_if_modifyHead] at h
    by_cases hc : (c == x) = true
    · rw [if_pos hc] at h
      rcases List.mem_cons.1 h with rfl | h
      · exact List.not_mem_nil
      · exact ih h
    · rw [if_neg hc] at h
      cases hs : cs.splitOn x with
      | nil => exact absurd hs (List.splitOn_ne_nil x cs)
      | cons first rest =>
        rw [hs] at h ih
        rcases List.mem_cons.1 h with rfl | h
        · have hx : x ≠ c := fun he => hc (he ▸ beq_self_eq_true c)
          simpa [hx] using ih (List.mem_cons_self)
        · exact ih (List.mem_cons_of_mem first h)

theorem pieces_ne_nil (separator : Char) (s : String) : pieces separator s ≠ [] := by
  simp [pieces, List.splitOn_ne_nil]

theorem length_splitOn (x : Char) (cs : List Char) : (cs.splitOn x).length = cs.count x + 1 := by
  induction cs with
  | nil => rfl
  | cons c cs ih =>
    rw [List.splitOn_cons_eq_if_modifyHead, List.count_cons]
    split
    · rw [List.length_cons, ih]
    · rw [List.length_modifyHead, ih]

theorem length_pieces (separator : Char) (s : String) :
    (pieces separator s).length = s.toList.count separator + 1 := by
  rw [pieces, List.length_map, length_splitOn]

theorem not_mem_of_mem_pieces {x : Char} {s piece : String} (h : piece ∈ pieces x s) :
    x ∉ piece.toList := by
  obtain ⟨cs, hcs, rfl⟩ := List.mem_map.1 h
  simpa using not_mem_of_mem_splitOn hcs

theorem pieces_intercalate {separator : Char} {entries : List String} (hn : entries ≠ [])
    (h : ∀ e ∈ entries, separator ∉ e.toList) :
    pieces separator (String.intercalate (String.singleton separator) entries) = entries := by
  have hsplit : ([separator].intercalate (entries.map String.toList)).splitOn separator =
      entries.map String.toList :=
    List.splitOn_intercalate separator (by simpa using h) (by simpa using hn)
  rw [pieces, String.toList_intercalate, String.toList_singleton, hsplit, List.map_map]
  simp [Function.comp_def]

end HostRotation.Text
