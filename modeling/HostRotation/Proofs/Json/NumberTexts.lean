import HostRotation.Proofs.Binary64.Shortest
import HostRotation.Proofs.Json.Numbers

namespace HostRotation

theorem Decimal.ofScaled_of_mod_ne_zero {n : Nat} (hn : n % 10 ≠ 0) (p : Int) :
    Decimal.ofScaled n p =
      ⟨Nat.toDigits 10 n, p + ((Nat.toDigits 10 n).length - 1 : Nat)⟩ := by
  have hlast : ∃ cs, Nat.toDigits 10 n = cs ++ [(n % 10).digitChar] := by
    rcases Nat.lt_or_ge n 10 with hlt | hge
    · exact ⟨[], by rw [Nat.toDigits_of_lt_base hlt, Nat.mod_eq_of_lt hlt, List.nil_append]⟩
    · exact ⟨_, Nat.toDigits_of_base_le (by decide) hge⟩
  obtain ⟨cs, hcs⟩ := hlast
  have hchar : ((n % 10).digitChar == '0') = false := by
    rw [beq_eq_false_iff_ne, ne_eq, Nat.digitChar_eq_zero]
    exact hn
  have hkeep : ((Nat.toDigits 10 n).reverse.dropWhile (· == '0')).reverse = Nat.toDigits 10 n := by
    rw [hcs, List.reverse_concat, List.dropWhile_cons_of_neg (by simp [hchar]),
      ← List.reverse_concat, List.reverse_reverse]
  rw [Decimal.ofScaled, hkeep]

namespace Json

/-- How a whole number times a power of ten is laid out: with all its places when at most sixteen of
them stand before the point, and at most four zeros after it come first; else with one digit before
the point, times a power of ten. -/
inductive Lays (n : Nat) : Int → List Char → Prop where
  | whole {zeros : Nat} (h : (Nat.toDigits 10 n).length + zeros ≤ 16) :
    Lays n zeros (Nat.toDigits 10 n ++ List.replicate zeros '0' ++ ['.', '0'])
  | point {before after : List Char} (hn : Nat.toDigits 10 n = before ++ after)
    (hbefore : before ≠ []) (hafter : after ≠ []) (h : before.length ≤ 16) :
    Lays n (-after.length) (before ++ '.' :: after)
  | small {zeros : Nat} (h : zeros ≤ 4) :
    Lays n (-((Nat.toDigits 10 n).length + zeros : Nat))
      ('0' :: '.' :: (List.replicate zeros '0' ++ Nat.toDigits 10 n))
  | exponent {first : Char} {rest : List Char} {p e : Int} (hn : Nat.toDigits 10 n = first :: rest)
    (he : e = p + rest.length) (h : e ≤ -6 ∨ 16 ≤ e) :
    Lays n p (first :: ((if rest = [] then [] else '.' :: rest) ++
      'e' :: (if 0 ≤ e then '+' else '-') :: Nat.toDigits 10 e.natAbs))

variable {n : Nat} {p : Int} {cs : List Char}

theorem exists_lays (n : Nat) (p : Int) : ∃ cs, Lays n p cs := by
  obtain ⟨first, rest, hn⟩ := List.exists_cons_of_ne_nil (Nat.toDigits_ne_nil (b := 10) (n := n))
  -- the first digit stands for ten to the `p + rest.length`
  by_cases he : p + rest.length ≤ -6 ∨ 16 ≤ p + rest.length
  · exact ⟨_, .exponent hn rfl he⟩
  have hlength : (Nat.toDigits 10 n).length = rest.length + 1 := by rw [hn, List.length_cons]
  rcases Int.lt_or_le p 0 with hneg | hpos
  · rcases Int.lt_or_le (p + rest.length) 0 with hsmall | hpoint
    · obtain ⟨zeros, rfl⟩ : ∃ zeros : Nat, p = -((Nat.toDigits 10 n).length + zeros : Nat) :=
        ⟨(-p - rest.length - 1).toNat, by omega⟩
      exact ⟨_, .small (by omega)⟩
    · obtain ⟨before, after, hsplit, hafter⟩ : ∃ before after : List Char,
          Nat.toDigits 10 n = before ++ after ∧ p = -after.length :=
        ⟨_, _, (List.take_append_drop (p + rest.length + 1).toNat _).symm, by
          rw [List.length_drop]; omega⟩
      subst hafter
      rw [hsplit, List.length_append] at hlength
      exact ⟨_, .point hsplit (List.ne_nil_of_length_pos (by omega))
        (List.ne_nil_of_length_pos (by omega)) (by omega)⟩
  · obtain ⟨zeros, rfl⟩ : ∃ zeros : Nat, p = zeros := ⟨p.toNat, by omega⟩
    exact ⟨_, .whole (by omega)⟩

namespace Number

variable {negative : Bool} {ds : List Char}

theorem decimalLiteral_whole {e : Nat} (he : e < 16) :
    decimalLiteral negative ⟨ds, e⟩ =
      { negative
        whole := ds.take (e + 1) ++ List.replicate (e + 1 - ds.length) '0'
        fraction := some (if ds.length ≤ e + 1 then ['0'] else ds.drop (e + 1)) } := by
  have hlarge : ¬(16 ≤ (e : Int) ∨ (e : Int) ≤ -6) := by omega
  rw [decimalLiteral, if_neg hlarge, if_neg (Int.natCast_nonneg e).not_gt, Int.natAbs_natCast]

theorem decimalLiteral_small {zeros : Nat} (h : zeros ≤ 4) :
    decimalLiteral negative ⟨ds, -(zeros + 1 : Nat)⟩ =
      { negative, whole := ['0'], fraction := some (List.replicate zeros '0' ++ ds) } := by
  have hlarge : ¬(16 ≤ -((zeros + 1 : Nat) : Int) ∨ -((zeros + 1 : Nat) : Int) ≤ -6) := by omega
  have hneg : -((zeros + 1 : Nat) : Int) < 0 := by omega
  rw [decimalLiteral, if_neg hlarge, if_pos hneg, Int.natAbs_neg, Int.natAbs_natCast,
    Nat.add_sub_cancel]

theorem decimalLiteral_exponent {e : Int} (h : e ≤ -6 ∨ 16 ≤ e) :
    decimalLiteral negative ⟨ds, e⟩ =
      { negative
        whole := ds.take 1
        fraction := if ds.length ≤ 1 then none else some (ds.drop 1)
        exponent := some (if 0 ≤ e then .plus else .minus, Nat.toDigits 10 e.natAbs) } := by
  rw [decimalLiteral, if_pos h.symm]

end Number

theorem renderSign_ite (e : Int) :
    NumberLiteral.renderSign (if 0 ≤ e then .plus else .minus) = [if 0 ≤ e then '+' else '-'] := by
  split
  · rfl
  · rfl

theorem Lays.render_eq (h : Lays n p cs) :
    (Number.decimalLiteral false
      ⟨Nat.toDigits 10 n, p + ((Nat.toDigits 10 n).length - 1 : Nat)⟩).render = cs := by
  have hlength := Nat.length_toDigits_pos (b := 10) (n := n)
  cases h with
  | @whole zeros h =>
    generalize Nat.toDigits 10 n = ds at *
    obtain ⟨e, he⟩ : ∃ e : Nat, e + 1 = ds.length + zeros := ⟨ds.length + zeros - 1, by omega⟩
    have hpower : (zeros : Int) + (ds.length - 1 : Nat) = e := by omega
    rw [hpower, Number.decimalLiteral_whole (by omega), he, List.take_of_length_le (by omega),
      Nat.add_sub_cancel_left, if_pos (by omega)]
    simp [NumberLiteral.render]
  | @point before after hn hbefore hafter h =>
    have hpos := List.length_pos_of_ne_nil hbefore
    have hpos' := List.length_pos_of_ne_nil hafter
    obtain ⟨e, he⟩ : ∃ e : Nat, e + 1 = before.length := ⟨before.length - 1, by omega⟩
    have hpower : -(after.length : Int) + ((before ++ after).length - 1 : Nat) = e := by
      rw [List.length_append]
      omega
    rw [hn, hpower, Number.decimalLiteral_whole (by omega), he, List.take_left, List.drop_left,
      List.length_append, if_neg (by omega), Nat.sub_eq_zero_of_le (by omega)]
    simp [NumberLiteral.render]
  | @small zeros h =>
    generalize Nat.toDigits 10 n = ds at *
    have hpower : -((ds.length + zeros : Nat) : Int) + (ds.length - 1 : Nat) =
        -(zeros + 1 : Nat) := by omega
    rw [hpower, Number.decimalLiteral_small h]
    simp [NumberLiteral.render]
  | @exponent first rest p e hn he h =>
    rw [hn, List.length_cons, Nat.add_sub_cancel, ← he, Number.decimalLiteral_exponent h]
    cases rest with
    | nil => simp [NumberLiteral.render, renderSign_ite]
    | cons second rest => simp [NumberLiteral.render, renderSign_ite]

def minus (negative : Bool) : List Char :=
  if negative then ['-'] else []

/-- The text of a number: an integer's decimal digits, and the shortest decimal of any other number,
which has a point or an exponent. -/
inductive Number.IsText : Number → List Char → Prop where
  | integer (n : Int) : IsText (.integer n) (minus (n < 0) ++ Nat.toDigits 10 n.natAbs)
  | zero (negative : Bool) : IsText (.real negative .zero) (minus negative ++ ['0', '.', '0'])
  | real (negative : Bool) {x : Binary64} {n : Nat} {p : Int} {cs : List Char}
    (hx : x.IsShortest n p) (hcs : Lays n p cs) : IsText (.real negative x) (minus negative ++ cs)

namespace Number

variable {negative : Bool} {x : Binary64}

theorem decimalLiteral_eq (negative : Bool) (d : Decimal) :
    decimalLiteral negative d = { decimalLiteral false d with negative } := by
  rw [decimalLiteral, decimalLiteral]
  split
  · rfl
  · split
    · rfl
    · rfl

theorem render_decimalLiteral (negative : Bool) (d : Decimal) :
    (decimalLiteral negative d).render = minus negative ++ (decimalLiteral false d).render := by
  have hplain : (decimalLiteral false d).negative = false := by rw [decimalLiteral_eq]
  rw [decimalLiteral_eq, NumberLiteral.render, NumberLiteral.render, hplain]
  simp [minus]

theorem render_real (negative : Bool) (hx : x.IsShortest n p) (hcs : Lays n p cs) :
    (Number.real negative x).render = minus negative ++ cs := by
  rw [render, literal, if_neg hx.ne_zero, hx.shortest_eq,
    Decimal.ofScaled_of_mod_ne_zero hx.mod_ne_zero, render_decimalLiteral, hcs.render_eq]

theorem IsText.render_eq {number : Number} (h : number.IsText cs) : number.render = cs := by
  cases h with
  | integer n => simp [render, literal, NumberLiteral.render, minus]
  | zero negative => simp [render, literal, NumberLiteral.render, minus]
  | real negative hx hcs => exact render_real negative hx hcs

theorem exists_isText (number : Number) : ∃ cs, number.IsText cs := by
  cases number with
  | integer n => exact ⟨_, .integer n⟩
  | real negative x =>
    by_cases hx : x = .zero
    · subst hx
      exact ⟨_, .zero negative⟩
    · obtain ⟨n, p, hshortest, -⟩ := Binary64.exists_isShortest hx
      obtain ⟨cs, hcs⟩ := exists_lays n p
      exact ⟨_, .real negative hshortest hcs⟩

/-- A number is written in the one text that it has. -/
theorem isText_iff {number : Number} : number.IsText cs ↔ number.render = cs := by
  refine ⟨IsText.render_eq, ?_⟩
  rintro rfl
  obtain ⟨cs, h⟩ := number.exists_isText
  rwa [h.render_eq]

end Number

open NumberLiteral (AreDigits IsWholePart Writes WritesFraction WritesExponent)

theorem areDigits_toDigits (n : Nat) : AreDigits (Nat.toDigits 10 n) :=
  (NumberLiteral.isWholePart_toDigits n).1

theorem isDigit_zeros {zeros : Nat} : ∀ c ∈ List.replicate zeros '0', c.isDigit := by
  intro c hc
  rw [List.eq_of_mem_replicate hc]
  rfl

theorem isWholePart_append_zeros {ds rest : List Char} (hn : 0 < n)
    (hsplit : Nat.toDigits 10 n = ds ++ rest) (hne : ds ≠ []) (zeros : Nat) :
    IsWholePart (ds ++ List.replicate zeros '0') := by
  have hdigits := (areDigits_toDigits n).2
  have hhead := head?_toDigits_ne_zero hn
  rw [hsplit] at hdigits hhead
  rw [List.head?_append_of_ne_nil _ hne] at hhead
  refine ⟨⟨List.append_ne_nil_of_left_ne_nil hne _, ?_⟩, fun hzero => ?_⟩
  · exact List.forall_mem_append.2 ⟨(List.forall_mem_append.1 hdigits).1, isDigit_zeros⟩
  · rw [List.head?_append_of_ne_nil _ hne] at hzero
    exact absurd hzero hhead

theorem exists_writes {whole fs es : List Char} {fraction : Option (List Char)}
    {exponent : Option (ExponentSign × List Char)} (negative : Bool) (hw : IsWholePart whole)
    (hf : WritesFraction fs fraction) (he : WritesExponent es exponent)
    (hsome : fraction.isSome ∨ exponent.isSome) :
    ∃ l, Writes (minus negative ++ (whole ++ (fs ++ es))) l ∧ l.negative = negative ∧
      l.isWhole = false := by
  refine ⟨{ negative, whole, fraction, exponent }, .parts hw hf he, rfl, ?_⟩
  cases fraction <;> cases exponent <;> simp_all [NumberLiteral.isWhole]

theorem Lays.writes (hn : 0 < n) (h : Lays n p cs) (negative : Bool) :
    ∃ l, Writes (minus negative ++ cs) l ∧ l.negative = negative ∧ l.isWhole = false := by
  have hdigits := areDigits_toDigits n
  cases h with
  | @whole zeros h =>
    have hwhole := isWholePart_append_zeros hn (List.append_nil _).symm hdigits.1 zeros
    exact exists_writes negative hwhole (.present ⟨List.cons_ne_nil '0' [], by simp⟩) .absent
      (.inl rfl)
  | @point before after hsplit hbefore hafter h =>
    have hwhole := isWholePart_append_zeros hn hsplit hbefore 0
    rw [hsplit] at hdigits
    rw [List.replicate_zero, List.append_nil] at hwhole
    have hwrites := exists_writes negative hwhole
      (.present ⟨hafter, (List.forall_mem_append.1 hdigits.2).2⟩) .absent (.inl rfl)
    rwa [List.append_nil] at hwrites
  | @small zeros h =>
    have hfraction : AreDigits (List.replicate zeros '0' ++ Nat.toDigits 10 n) :=
      ⟨List.append_ne_nil_of_right_ne_nil _ hdigits.1,
        List.forall_mem_append.2 ⟨isDigit_zeros, hdigits.2⟩⟩
    have hwrites := exists_writes negative (NumberLiteral.isWholePart_toDigits 0)
      (.present hfraction) .absent (.inl rfl)
    rwa [List.append_nil] at hwrites
  | @exponent first rest p e hsplit he h =>
    have hwhole : IsWholePart ([first] ++ List.replicate 0 '0') :=
      isWholePart_append_zeros hn hsplit (List.cons_ne_nil _ _) 0
    rw [hsplit] at hdigits
    have hfraction : WritesFraction (if rest = [] then [] else '.' :: rest)
        (if rest = [] then none else some rest) := by
      split
      · exact .absent
      · next hne => exact .present ⟨hne, (List.forall_mem_cons.1 hdigits.2).2⟩
    have hexponent : WritesExponent
        ('e' :: (NumberLiteral.renderSign (if 0 ≤ e then .plus else .minus) ++
          Nat.toDigits 10 e.natAbs))
        (some (if 0 ≤ e then .plus else .minus, Nat.toDigits 10 e.natAbs)) :=
      .present (.inl rfl) (areDigits_toDigits e.natAbs)
    rw [renderSign_ite] at hexponent
    exact exists_writes negative hwhole hfraction hexponent (.inr rfl)

namespace Number

theorem IsText.writes_integer {n : Int} (h : (Number.integer n).IsText cs) :
    Writes cs { negative := n < 0, whole := Nat.toDigits 10 n.natAbs } := by
  cases h
  have hwrites : Writes (minus (n < 0) ++ (Nat.toDigits 10 n.natAbs ++ ([] ++ [])))
      { negative := n < 0, whole := Nat.toDigits 10 n.natAbs } :=
    .parts (NumberLiteral.isWholePart_toDigits _) .absent .absent
  rwa [List.append_nil, List.append_nil] at hwrites

/-- The text of a number that is no integer is a literal with a fraction or an exponent. -/
theorem IsText.writes_real {negative : Bool} {x : Binary64}
    (h : (Number.real negative x).IsText cs) :
    ∃ l, Writes cs l ∧ l.negative = negative ∧ l.isWhole = false := by
  cases h with
  | zero negative =>
    exact exists_writes negative (NumberLiteral.isWholePart_toDigits 0)
      (.present ⟨List.cons_ne_nil '0' [], by simp⟩) .absent (.inl rfl)
  | @real negative x n p cs hx hcs =>
    have hn : 0 < n := by
      apply Nat.pos_of_ne_zero
      rintro rfl
      exact hx.mod_ne_zero rfl
    exact hcs.writes hn negative

end Number
end Json
end HostRotation
