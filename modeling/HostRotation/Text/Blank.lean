namespace HostRotation.Text

/-- The ranges of characters with the Unicode property White_Space. -/
def blankRanges : List (Nat × Nat) :=
  [(0x09, 0x0D), (0x20, 0x20), (0x85, 0x85), (0xA0, 0xA0), (0x1680, 0x1680), (0x2000, 0x200A),
    (0x2028, 0x2029), (0x202F, 0x202F), (0x205F, 0x205F), (0x3000, 0x3000)]

def isBlank (c : Char) : Bool :=
  blankRanges.any fun r => r.1 ≤ c.toNat && c.toNat ≤ r.2

def trimChars (cs : List Char) : List Char :=
  ((cs.dropWhile isBlank).reverse.dropWhile isBlank).reverse

def trim (s : String) : String :=
  String.ofList (trimChars s.toList)

def isBlankText (s : String) : Bool :=
  s.toList.all isBlank

@[simp] theorem toList_trim (s : String) : (trim s).toList = trimChars s.toList :=
  String.toList_ofList

theorem mem_of_mem_trimChars {c : Char} {cs : List Char} (h : c ∈ trimChars cs) : c ∈ cs := by
  rw [trimChars, List.mem_reverse] at h
  exact (List.dropWhile_sublist isBlank).mem
    (List.mem_reverse.1 ((List.dropWhile_sublist isBlank).mem h))

theorem dropWhile_eq_nil_iff {cs : List Char} : cs.dropWhile isBlank = [] ↔ cs.all isBlank := by
  induction cs with
  | nil => simp
  | cons c cs ih => cases h : isBlank c <;> simp_all

theorem trimChars_eq_nil_iff {cs : List Char} : trimChars cs = [] ↔ cs.all isBlank := by
  rw [trimChars, List.reverse_eq_nil_iff, dropWhile_eq_nil_iff, List.all_reverse]
  constructor
  · intro h
    rw [← List.takeWhile_append_dropWhile (p := isBlank) (l := cs), List.all_append, h]
    simp [List.all_takeWhile]
  · intro h
    simp [dropWhile_eq_nil_iff.2 h]

theorem dropWhile_eq_self {cs : List Char} (h : ∀ c ∈ cs.head?, isBlank c = false) :
    cs.dropWhile isBlank = cs := by
  cases cs with
  | nil => rfl
  | cons c cs => simp [h c rfl]

theorem trimChars_append {before cs after : List Char} (hbefore : ∀ c ∈ before, isBlank c)
    (hafter : ∀ c ∈ after, isBlank c) :
    trimChars (before ++ (cs ++ after)) = trimChars cs := by
  have hdropped : ((after.reverse ++ (cs.dropWhile isBlank).reverse).dropWhile isBlank).reverse =
      trimChars cs := by
    rw [List.dropWhile_append_of_pos fun c hc => hafter c (List.mem_reverse.1 hc), trimChars]
  rw [trimChars, List.dropWhile_append_of_pos hbefore, List.dropWhile_append]
  split
  · next h =>
    have hnil : cs.dropWhile isBlank = [] := List.isEmpty_iff.1 h
    rw [dropWhile_eq_nil_iff.2 (List.all_eq_true.2 hafter), trimChars, hnil]
  · rw [List.reverse_append, hdropped]

/-- Blanks are all that trimming takes away. -/
theorem exists_blanks_around (cs : List Char) : ∃ before after,
    (∀ c ∈ before, isBlank c) ∧ (∀ c ∈ after, isBlank c) ∧
      cs = before ++ (trimChars cs ++ after) := by
  refine ⟨cs.takeWhile isBlank, ((cs.dropWhile isBlank).reverse.takeWhile isBlank).reverse,
    List.all_eq_true.1 List.all_takeWhile, ?_, ?_⟩
  · intro c hc
    exact List.all_eq_true.1 List.all_takeWhile c (List.mem_reverse.1 hc)
  · rw [trimChars, ← List.reverse_append, List.takeWhile_append_dropWhile, List.reverse_reverse,
      List.takeWhile_append_dropWhile]

@[simp] theorem trimChars_trimChars (cs : List Char) : trimChars (trimChars cs) = trimChars cs := by
  obtain ⟨before, after, hbefore, hafter, he⟩ := exists_blanks_around cs
  rw [← trimChars_append hbefore hafter, ← he]

@[simp] theorem trim_trim (s : String) : trim (trim s) = trim s := by
  simp [← String.toList_inj]

theorem trim_eq_empty_iff {s : String} : trim s = "" ↔ isBlankText s := by
  rw [← String.toList_inj, toList_trim, isBlankText, ← trimChars_eq_nil_iff]
  rfl

theorem trim_eq_self {s : String} (h : ∀ c ∈ s.toList, isBlank c = false) : trim s = s := by
  have hs := dropWhile_eq_self fun c hc => h c (List.mem_of_mem_head? hc)
  have hr := dropWhile_eq_self fun c hc => h c (List.mem_reverse.1 (List.mem_of_mem_head? hc))
  rw [← String.toList_inj, toList_trim, trimChars, hs, hr, List.reverse_reverse]

theorem toNat_of_isDigit {c : Char} (h : c.isDigit = true) : 48 ≤ c.toNat ∧ c.toNat ≤ 57 := by
  simpa [Char.isDigit, UInt32.le_iff_toNat_le] using h

theorem isBlank_of_isDigit {c : Char} (h : c.isDigit = true) : isBlank c = false := by
  obtain ⟨hlow, hhigh⟩ := toNat_of_isDigit h
  simp [isBlank, blankRanges]
  omega

end HostRotation.Text
