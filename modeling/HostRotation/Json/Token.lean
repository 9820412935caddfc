import HostRotation.Json.NumberLiteral
import HostRotation.Json.StringLiteral

namespace HostRotation.Json

inductive Token where
  | openArray
  | closeArray
  | openObject
  | closeObject
  | comma
  | colon
  | null
  | bool (b : Bool)
  | number (l : NumberLiteral)
  | string (items : List Item)
  deriving DecidableEq, Repr

namespace Token

def isSpace (c : Char) : Bool :=
  c == ' ' || c == '\t' || c == '\n' || c == '\r'

def isLetter (c : Char) : Bool :=
  'a' ≤ c && c ≤ 'z'

def word? : List Char → Option Token
  | ['n', 'u', 'l', 'l'] => some .null
  | ['t', 'r', 'u', 'e'] => some (.bool true)
  | ['f', 'a', 'l', 's', 'e'] => some (.bool false)
  | _ => none

def next? (c : Char) (rest : List Char) : Option (Token × List Char) :=
  match c with
  | '[' => some (.openArray, rest)
  | ']' => some (.closeArray, rest)
  | '\x7b' => some (.openObject, rest)
  | '\x7d' => some (.closeObject, rest)
  | ',' => some (.comma, rest)
  | ':' => some (.colon, rest)
  | '"' => (Item.scan? rest).map fun (items, rest) => (.string items, rest)
  | c =>
    if isLetter c then
      (word? (c :: rest.takeWhile isLetter)).map fun t => (t, rest.dropWhile isLetter)
    else
      (NumberLiteral.ofChars? (c :: rest.takeWhile NumberLiteral.isNumberChar)).map fun l =>
        (.number l, rest.dropWhile NumberLiteral.isNumberChar)

theorem length_next? {c : Char} {rest after : List Char} {t : Token}
    (h : next? c rest = some (t, after)) : after.length ≤ rest.length := by
  have hdrop (p : Char → Bool) : (rest.dropWhile p).length ≤ rest.length :=
    (List.dropWhile_sublist p).length_le
  unfold next? at h
  split at h
  case h_7 =>
    obtain ⟨⟨items, r⟩, hs, he⟩ := Option.map_eq_some_iff.1 h
    cases he
    exact Nat.le_of_lt (Item.length_scan? hs)
  case h_8 =>
    split at h
    all_goals
      obtain ⟨_, _, he⟩ := Option.map_eq_some_iff.1 h
      cases he
      exact hdrop _
  all_goals
    cases h
    exact Nat.le_refl _

/-- The tokens of a text; none when it holds something else. -/
def scan? : List Char → Option (List Token)
  | [] => some []
  | c :: rest =>
    if isSpace c then scan? rest
    else
      match h : next? c rest with
      | none => none
      | some (t, after) =>
        have := length_next? h
        (scan? after).map (t :: ·)
termination_by cs => cs.length
decreasing_by all_goals simp_all; try omega

def render : Token → List Char
  | .openArray => ['[']
  | .closeArray => [']']
  | .openObject => ['\x7b']
  | .closeObject => ['\x7d']
  | .comma => [',']
  | .colon => [':']
  | .null => ['n', 'u', 'l', 'l']
  | .bool true => ['t', 'r', 'u', 'e']
  | .bool false => ['f', 'a', 'l', 's', 'e']
  | .number l => l.render
  | .string items => '"' :: items.flatMap Item.render ++ ['"']

end Token
end HostRotation.Json
