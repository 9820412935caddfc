import HostRotation.Json.NumberLiteral

namespace HostRotation.Json

theorem span_append {p : Char → Bool} {cs rest : List Char} (hcs : ∀ c ∈ cs, p c)
    (hrest : ∀ c ∈ rest.head?, p c = false) :
    (cs ++ rest).takeWhile p = cs ∧ (cs ++ rest).dropWhile p = rest := by
  rw [List.takeWhile_append_of_pos hcs, List.dropWhile_append_of_pos hcs]
  cases rest with
  | nil => simp
  | cons c rest => simp [hrest c rfl]

namespace NumberLiteral

def AreDigits (ds : List Char) : Prop :=
  ds ≠ [] ∧ ∀ c ∈ ds, c.isDigit

/-- Digits that are zero alone or do not start with a zero. -/
def IsWholePart (ds : List Char) : Prop :=
  AreDigits ds ∧ (ds.head? = some '0' → ds = ['0'])

/-- A point with digits after it, or nothing. -/
inductive WritesFraction : List Char → Option (List Char) → Prop where
  | absent : WritesFraction [] none
  | present {ds : List Char} (h : AreDigits ds) : WritesFraction ('.' :: ds) (some ds)

/-- One of two letters with a sign and digits after it, or nothing. -/
inductive WritesExponent : List Char → Option (ExponentSign × List Char) → Prop where
  | absent : WritesExponent [] none
  | present {letter : Char} {s : ExponentSign} {ds : List Char}
    (hletter : letter = 'e' ∨ letter = 'E') (h : AreDigits ds) :
    WritesExponent (letter :: (renderSign s ++ ds)) (some (s, ds))

/-- The characters that write a literal: a minus sign if it is negative, and its parts. -/
inductive Writes : List Char → NumberLiteral → Prop where
  | parts {negative : Bool} {whole fs es : List Char} {fraction : Option (List Char)}
    {exponent : Option (ExponentSign × List Char)} (hw : IsWholePart whole)
    (hf : WritesFraction fs fraction) (he : WritesExponent es exponent) :
    Writes ((if negative then ['-'] else []) ++ (whole ++ (fs ++ es)))
      { negative, whole, fraction, exponent }

variable {cs ds rest : List Char} {l : NumberLiteral}

theorem AreDigits.exists_cons (h : AreDigits ds) : ∃ c cs, ds = c :: cs ∧ c.isDigit := by
  obtain ⟨c, cs, rfl⟩ := List.exists_cons_of_ne_nil h.1
  exact ⟨c, cs, rfl, h.2 c List.mem_cons_self⟩

theorem AreDigits.chars (h : AreDigits ds) : ∀ c ∈ ds, isNumberChar c := by
  intro c hc
  simp [isNumberChar, h.2 c hc]

theorem WritesFraction.chars {fraction : Option (List Char)} (h : WritesFraction cs fraction) :
    ∀ c ∈ cs, isNumberChar c := by
  cases h with
  | absent => nofun
  | present h => exact List.forall_mem_cons.2 ⟨rfl, h.chars⟩

theorem WritesExponent.chars {exponent : Option (ExponentSign × List Char)}
    (h : WritesExponent cs exponent) : ∀ c ∈ cs, isNumberChar c := by
  cases h with
  | absent => nofun
  | @present letter s ds hletter h =>
    have hsign : ∀ c ∈ renderSign s, isNumberChar c := List.all_eq_true.1 (by cases s <;> rfl)
    refine List.forall_mem_cons.2 ⟨?_, List.forall_mem_append.2 ⟨hsign, h.chars⟩⟩
    rcases hletter with rfl | rfl <;> rfl

theorem Writes.chars (h : Writes cs l) : ∀ c ∈ cs, isNumberChar c := by
  cases h with
  | @parts negative whole fs es fraction exponent hw hf he =>
    have hsign : ∀ c ∈ (if negative then ['-'] else []), isNumberChar c :=
      List.all_eq_true.1 (by cases negative <;> rfl)
    simp only [List.forall_mem_append]
    exact ⟨hsign, hw.1.chars, hf.chars, he.chars⟩

theorem Writes.first (h : Writes cs l) : ∃ c rest, cs = c :: rest ∧ (c = '-' ∨ c.isDigit) := by
  cases h with
  | @parts negative whole fs es fraction exponent hw hf he =>
    cases negative with
    | true => exact ⟨'-', _, rfl, .inl rfl⟩
    | false =>
      obtain ⟨c, ds, rfl, hc⟩ := hw.1.exists_cons
      exact ⟨c, _, rfl, .inr hc⟩

theorem of_digits? (h : digits? cs = some (ds, rest)) : cs = ds ++ rest ∧ AreDigits ds := by
  rw [digits?] at h
  split at h
  · cases h
  · next htake =>
    obtain ⟨rfl, rfl⟩ := Prod.mk.inj (Option.some.inj h)
    refine ⟨List.takeWhile_append_dropWhile.symm, htake, fun c hc => ?_⟩
    exact List.all_eq_true.1 List.all_takeWhile c hc

theorem of_whole? (h : whole? cs = some (ds, rest)) : cs = ds ++ rest ∧ IsWholePart ds := by
  rw [whole?.eq_def] at h
  split at h
  · cases h
    exact ⟨rfl, ⟨nofun, by simp⟩, fun _ => rfl⟩
  · next hzero =>
    obtain ⟨rfl, hds⟩ := of_digits? h
    refine ⟨rfl, hds, fun hhead => ?_⟩
    obtain ⟨c, cs, rfl, -⟩ := hds.exists_cons
    obtain rfl := Option.some.inj hhead
    exact absurd rfl (hzero _)

theorem of_fraction? {fraction : Option (List Char)} (h : fraction? cs = some (fraction, rest)) :
    ∃ fs, cs = fs ++ rest ∧ WritesFraction fs fraction := by
  rw [fraction?.eq_def] at h
  split at h
  · next after =>
    obtain ⟨⟨ds, rest⟩, hds, he⟩ := Option.map_eq_some_iff.1 h
    cases he
    obtain ⟨rfl, hd⟩ := of_digits? hds
    exact ⟨'.' :: ds, rfl, .present hd⟩
  · cases h
    exact ⟨[], rfl, .absent⟩

theorem renderSign_sign (cs : List Char) : renderSign (sign cs).1 ++ (sign cs).2 = cs := by
  rw [sign.eq_def]
  split <;> rfl

theorem of_exponent? {exponent : Option (ExponentSign × List Char)}
    (h : exponent? cs = some (exponent, rest)) :
    ∃ es, cs = es ++ rest ∧ WritesExponent es exponent := by
  have present {letter : Char} {after : List Char} (hletter : letter = 'e' ∨ letter = 'E')
      (h : ((digits? (sign after).2).map fun r => (some ((sign after).1, r.1), r.2)) =
        some (exponent, rest)) :
      ∃ es, letter :: after = es ++ rest ∧ WritesExponent es exponent := by
    obtain ⟨⟨ds, r⟩, hds, he⟩ := Option.map_eq_some_iff.1 h
    cases he
    obtain ⟨hsplit, hd⟩ := of_digits? hds
    refine ⟨letter :: (renderSign (sign after).1 ++ ds), ?_, .present hletter hd⟩
    rw [List.cons_append, List.append_assoc, ← hsplit, renderSign_sign]
  rw [exponent?.eq_def] at h
  split at h
  · exact present (.inl rfl) h
  · exact present (.inr rfl) h
  · cases h
    exact ⟨[], rfl, .absent⟩

theorem digits?_append (h : AreDigits ds) (hrest : ∀ c ∈ rest.head?, c.isDigit = false) :
    digits? (ds ++ rest) = some (ds, rest) := by
  obtain ⟨htake, hdrop⟩ := span_append h.2 hrest
  rw [digits?, htake, hdrop]
  split
  · exact absurd rfl h.1
  · rfl

theorem whole?_append (h : IsWholePart ds) (hrest : ∀ c ∈ rest.head?, c.isDigit = false) :
    whole? (ds ++ rest) = some (ds, rest) := by
  rw [whole?.eq_def]
  split
  · next after hcs =>
    obtain ⟨c, cs, rfl, -⟩ := h.1.exists_cons
    obtain ⟨rfl, rfl⟩ := List.cons.inj hcs
    obtain ⟨-, rfl⟩ := List.cons.inj (h.2 rfl)
    rfl
  · exact digits?_append h.1 hrest

theorem fraction?_append {fraction : Option (List Char)} (h : WritesFraction cs fraction)
    (hrest : ∀ c ∈ rest.head?, c.isDigit = false ∧ c ≠ '.') :
    fraction? (cs ++ rest) = some (fraction, rest) := by
  cases h with
  | absent =>
    rw [List.nil_append, fraction?.eq_def]
    split
    · exact absurd rfl (hrest '.' rfl).2
    · rfl
  | present h =>
    rw [List.cons_append, fraction?, digits?_append h fun c hc => (hrest c hc).1]
    rfl

theorem sign_renderSign_append (s : ExponentSign) (h : AreDigits ds) :
    sign (renderSign s ++ ds) = (s, ds) := by
  cases s with
  | plus | minus => rfl
  | unsigned =>
    obtain ⟨c, cs, rfl, hc⟩ := h.exists_cons
    rw [renderSign, List.nil_append, sign.eq_def]
    split
    · next he =>
      cases he
      cases hc
    · next he =>
      cases he
      cases hc
    · rfl

theorem exponent?_of_writes {exponent : Option (ExponentSign × List Char)}
    (h : WritesExponent cs exponent) : exponent? cs = some (exponent, []) := by
  cases h with
  | absent => rfl
  | @present letter s ds hletter h =>
    have hread : (digits? (sign (renderSign s ++ ds)).2).map
        (fun r => (some ((sign (renderSign s ++ ds)).1, r.1), r.2)) = some (some (s, ds), []) := by
      have hend : digits? (ds ++ []) = some (ds, []) := digits?_append h nofun
      rw [List.append_nil] at hend
      rw [sign_renderSign_append s h, hend]
      rfl
    rcases hletter with rfl | rfl
    · exact hread
    · exact hread

theorem WritesExponent.head {exponent : Option (ExponentSign × List Char)}
    (h : WritesExponent cs exponent) : ∀ c ∈ cs.head?, c.isDigit = false ∧ c ≠ '.' := by
  cases h with
  | absent => nofun
  | present hletter =>
    rintro c ⟨⟩
    rcases hletter with rfl | rfl <;> decide

theorem WritesFraction.head_append {fraction : Option (List Char)} (h : WritesFraction cs fraction)
    (hrest : ∀ c ∈ rest.head?, c.isDigit = false) :
    ∀ c ∈ (cs ++ rest).head?, c.isDigit = false := by
  cases h with
  | absent => exact hrest
  | present =>
    rintro c ⟨⟩
    rfl

/-- Characters are read as the literal that they write, and as nothing else. -/
theorem ofChars?_eq_some_iff : ofChars? cs = some l ↔ Writes cs l := by
  constructor
  · intro h
    unfold ofChars? at h
    split at h
    next negative cs' hm =>
    simp only [Option.bind_eq_bind, Option.bind_eq_some_iff] at h
    obtain ⟨⟨whole, cs₁⟩, hwhole, ⟨fraction, cs₂⟩, hfraction, ⟨exponent, cs₃⟩, hexponent, hend⟩ := h
    split at hend
    · next hnil =>
      obtain rfl := Option.some.inj hend
      obtain rfl := List.isEmpty_iff.1 hnil
      obtain ⟨rfl, hw⟩ := of_whole? hwhole
      obtain ⟨fs, rfl, hf⟩ := of_fraction? hfraction
      obtain ⟨es, rfl, he⟩ := of_exponent? hexponent
      have hcs : cs = (if negative then ['-'] else []) ++ (whole ++ (fs ++ es)) := by
        split at hm
        · cases hm
          simp
        · cases hm
          simp
      exact hcs ▸ .parts hw hf he
    · cases hend
  · rintro @⟨negative, whole, fs, es, fraction, exponent, hw, hf, he⟩
    have hread : (whole? (whole ++ (fs ++ es))).bind (fun r =>
        (fraction? r.2).bind fun r' => (exponent? r'.2).bind fun r'' =>
          if r''.2.isEmpty then
            some ({ negative, whole := r.1, fraction := r'.1, exponent := r''.1 } : NumberLiteral)
          else none) = some { negative, whole, fraction, exponent } := by
      rw [whole?_append hw (hf.head_append fun c hc => (he.head c hc).1), Option.bind_some,
        fraction?_append hf he.head, Option.bind_some, exponent?_of_writes he]
      rfl
    cases negative with
    | true => exact hread
    | false =>
      obtain ⟨c, cs, rfl, hc⟩ := hw.1.exists_cons
      unfold ofChars?
      split
      next hm =>
      split at hm
      · next he =>
        cases he
        cases hc
      · cases hm
        exact hread

end NumberLiteral
end HostRotation.Json
