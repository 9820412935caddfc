import HostRotation.Json.Token
import HostRotation.Proofs.Json.Literals
import HostRotation.Proofs.Json.Strings

namespace HostRotation.Json

/-- A literal that is read again from what is written for it. -/
structure NumberLiteral.Legible (l : NumberLiteral) : Prop where
  chars : ∀ c ∈ l.render, isNumberChar c
  read : ofChars? l.render = some l

namespace Token

def Legible : Token → Prop
  | .number l => l.Legible
  | .string items => ∃ s, items = Item.ofText s
  | _ => True

/-- A token that what follows would not be read as a part of. -/
def EndsBefore (t : Token) (rest : List Char) : Prop :=
  match t with
  | .null | .bool _ => ∀ c ∈ rest.head?, isLetter c = false
  | .number _ => ∀ c ∈ rest.head?, NumberLiteral.isNumberChar c = false
  | _ => True

theorem scan?_space {c : Char} (h : isSpace c) (rest : List Char) :
    scan? (c :: rest) = scan? rest := by
  rw [scan?, if_pos h]

theorem scan?_cons {c : Char} {rest after : List Char} {t : Token} (hs : isSpace c = false)
    (h : next? c rest = some (t, after)) : scan? (c :: rest) = (scan? after).map (t :: ·) := by
  rw [scan?, hs]
  simp only [Bool.false_eq_true, if_false]
  split
  · next hn =>
    rw [h] at hn
    cases hn
  · next hn =>
    rw [h] at hn
    cases hn
    rfl

theorem next?_word {c : Char} {rest : List Char} {t : Token} (cs : List Char) (hc : isLetter c)
    (hcs : cs.all isLetter) (ht : word? (c :: cs) = some t)
    (hrest : ∀ c ∈ rest.head?, isLetter c = false) : next? c (cs ++ rest) = some (t, rest) := by
  obtain ⟨htake, hdrop⟩ := span_append (List.all_eq_true.1 hcs) hrest
  unfold next?
  split
  case h_8 => rw [if_pos hc, htake, hdrop, ht, Option.map_some]
  all_goals cases hc

theorem isLetter_of_first {c : Char} (h : c = '-' ∨ c.isDigit) : isLetter c = false := by
  rcases h with rfl | h
  · rfl
  · have hc : c.toNat ≤ 57 := by
      simp only [Char.isDigit, Bool.and_eq_true, decide_eq_true_eq] at h
      exact UInt32.le_iff_toNat_le.1 h.2
    simp [isLetter, Char.le_def, UInt32.le_iff_toNat_le]
    omega

theorem isSpace_of_first {c : Char} (h : c = '-' ∨ c.isDigit) : isSpace c = false := by
  rcases h with rfl | h
  · rfl
  · rw [Bool.eq_false_iff]
    intro hs
    simp only [isSpace, Bool.or_eq_true, beq_iff_eq, or_assoc] at hs
    rcases hs with rfl | rfl | rfl | rfl <;> cases h

theorem scan?_number {l : NumberLiteral} {cs rest : List Char} (h : NumberLiteral.Writes cs l)
    (hrest : ∀ c ∈ rest.head?, NumberLiteral.isNumberChar c = false) :
    scan? (cs ++ rest) = (scan? rest).map (.number l :: ·) := by
  obtain ⟨c, cs, rfl, hfirst⟩ := h.first
  obtain ⟨htake, hdrop⟩ := span_append (fun d hd => h.chars d (List.mem_cons_of_mem c hd)) hrest
  rw [List.cons_append]
  apply scan?_cons (isSpace_of_first hfirst)
  unfold next?
  split
  case h_8 =>
    rw [isLetter_of_first hfirst, htake, hdrop, NumberLiteral.ofChars?_eq_some_iff.2 h]
    rfl
  all_goals rcases hfirst with h | h <;> cases h

theorem scan?_render {t : Token} {rest : List Char} (ht : t.Legible) (he : t.EndsBefore rest) :
    scan? (t.render ++ rest) = (scan? rest).map (t :: ·) := by
  cases t with
  | openArray | closeArray | openObject | closeObject | comma | colon => exact scan?_cons rfl rfl
  | null =>
    exact scan?_cons rfl (next?_word ['u', 'l', 'l'] rfl rfl rfl he)
  | bool b =>
    cases b with
    | false => exact scan?_cons rfl (next?_word ['a', 'l', 's', 'e'] rfl rfl rfl he)
    | true => exact scan?_cons rfl (next?_word ['r', 'u', 'e'] rfl rfl rfl he)
  | number l => exact scan?_number (NumberLiteral.ofChars?_eq_some_iff.1 ht.read) he
  | string items =>
    obtain ⟨s, rfl⟩ := ht
    have hnext : next? '"' ((Item.ofText s).flatMap Item.render ++ '"' :: rest) =
        some (.string (Item.ofText s), rest) := by
      rw [next?, Item.scan?_ofText, Option.map_some]
    rw [render, List.cons_append, List.cons_append, List.append_assoc]
    exact scan?_cons rfl hnext

/-- A text in which tokens are laid out, with white space around them or not, and number literals in
any of the ways to write them. -/
inductive Layout : List Token → List Char → Prop where
  | nil : Layout [] []
  | space {c : Char} {ts : List Token} {cs : List Char} (hc : isSpace c) (h : Layout ts cs) :
    Layout ts (c :: cs)
  | number {l : NumberLiteral} {ts : List Token} {ds cs : List Char}
    (hl : NumberLiteral.Writes ds l) (he : (Token.number l).EndsBefore cs) (h : Layout ts cs) :
    Layout (.number l :: ts) (ds ++ cs)
  | token {t : Token} {ts : List Token} {cs : List Char} (ht : t.Legible) (he : t.EndsBefore cs)
    (h : Layout ts cs) : Layout (t :: ts) (t.render ++ cs)

theorem Layout.scan? {ts : List Token} {cs : List Char} (h : Layout ts cs) :
    Token.scan? cs = some ts := by
  induction h with
  | nil => rw [Token.scan?]
  | space hc _ ih => rw [scan?_space hc, ih]
  | number hl he _ ih => rw [scan?_number hl he, ih, Option.map_some]
  | token ht he _ ih => rw [scan?_render ht he, ih, Option.map_some]

end Token
end HostRotation.Json
