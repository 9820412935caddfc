import HostRotation.Json.Tree
import HostRotation.Proofs.Json.Tokens

namespace HostRotation.Json.Tree

mutual

def tokens : Tree → List Token
  | .null => [.null]
  | .bool b => [.bool b]
  | .number l => [.number l]
  | .string items => [.string items]
  | .array elements => .openArray :: elementTokens elements ++ [.closeArray]
  | .object members => .openObject :: memberTokens members ++ [.closeObject]

def elementTokens : List Tree → List Token
  | [] => []
  | [t] => tokens t
  | t :: ts => tokens t ++ .comma :: elementTokens ts

def memberTokens : List (List Item × Tree) → List Token
  | [] => []
  | [(key, t)] => .string key :: .colon :: tokens t
  | (key, t) :: ms => .string key :: .colon :: tokens t ++ .comma :: memberTokens ms

end

theorem tokens_array_append (elements : List Tree) (rest : List Token) :
    (array elements).tokens ++ rest =
      .openArray :: (elementTokens elements ++ .closeArray :: rest) := by
  simp [tokens]

theorem tokens_object_append (members : List (List Item × Tree)) (rest : List Token) :
    (object members).tokens ++ rest =
      .openObject :: (memberTokens members ++ .closeObject :: rest) := by
  simp [tokens]

theorem foldlM_elementTokens_first (t : Tree) (ts : List Tree) (stack : List Frame)
    (rest : List Token) :
    (elementTokens (t :: ts) ++ rest).foldlM step (.element stack) =
      (elementTokens (t :: ts) ++ rest).foldlM step (.value (.array [] :: stack)) := by
  cases ts <;> cases t <;> rfl

theorem foldlM_memberTokens_first (key : List Item) (t : Tree) (ms : List (List Item × Tree))
    (stack : List Frame) (rest : List Token) :
    (memberTokens ((key, t) :: ms) ++ rest).foldlM step (.member stack) =
      (memberTokens ((key, t) :: ms) ++ rest).foldlM step (.key stack []) := by
  cases ms <;> rfl

mutual

theorem foldlM_tokens (t : Tree) (stack : List Frame) (rest : List Token) :
    (t.tokens ++ rest).foldlM step (.value stack) = rest.foldlM step (.after stack t) := by
  match t with
  | .null | .bool _ | .number _ | .string _ => rfl
  | .array [] => rfl
  | .object [] => rfl
  | .array (t :: ts) =>
    rw [tokens_array_append]
    calc (Token.openArray :: (elementTokens (t :: ts) ++ .closeArray :: rest)).foldlM step
          (.value stack)
      _ = (elementTokens (t :: ts) ++ .closeArray :: rest).foldlM step (.element stack) := rfl
      _ = (elementTokens (t :: ts) ++ .closeArray :: rest).foldlM step
            (.value (.array [] :: stack)) := foldlM_elementTokens_first t ts stack _
      _ = _ := foldlM_elementTokens t ts [] stack rest
  | .object ((key, t) :: ms) =>
    rw [tokens_object_append]
    calc (Token.openObject :: (memberTokens ((key, t) :: ms) ++ .closeObject :: rest)).foldlM
          step (.value stack)
      _ = (memberTokens ((key, t) :: ms) ++ .closeObject :: rest).foldlM step
            (.member stack) := rfl
      _ = (memberTokens ((key, t) :: ms) ++ .closeObject :: rest).foldlM step
            (.key stack []) := foldlM_memberTokens_first key t ms stack _
      _ = _ := foldlM_memberTokens key t ms [] stack rest
termination_by sizeOf t

theorem foldlM_elementTokens (t : Tree) (ts elements : List Tree) (stack : List Frame)
    (rest : List Token) :
    (elementTokens (t :: ts) ++ .closeArray :: rest).foldlM step
        (.value (.array elements :: stack)) =
      rest.foldlM step (.after stack (.array (elements.reverse ++ t :: ts))) := by
  match ts with
  | [] =>
    rw [elementTokens, foldlM_tokens t]
    simp [step]
  | u :: ts =>
    have ih := foldlM_elementTokens u ts (t :: elements) stack rest
    rw [List.reverse_cons, List.append_assoc] at ih
    rw [elementTokens, List.append_assoc, foldlM_tokens t]
    · exact ih
    · nofun
termination_by sizeOf t + sizeOf ts

theorem foldlM_memberTokens (key : List Item) (t : Tree) (ms members : List (List Item × Tree))
    (stack : List Frame) (rest : List Token) :
    (memberTokens ((key, t) :: ms) ++ .closeObject :: rest).foldlM step (.key stack members) =
      rest.foldlM step (.after stack (.object (members.reverse ++ (key, t) :: ms))) := by
  match ms with
  | [] =>
    rw [memberTokens]
    refine (foldlM_tokens t (.member members key :: stack) (.closeObject :: rest)).trans ?_
    simp [step]
  | (key', u) :: ms =>
    have ih := foldlM_memberTokens key' u ms ((key, t) :: members) stack rest
    rw [List.reverse_cons, List.append_assoc] at ih
    rw [memberTokens, List.append_assoc]
    · exact (foldlM_tokens t (.member members key :: stack) _).trans ih
    · nofun
termination_by sizeOf t + sizeOf ms

end

theorem ofTokens?_tokens (t : Tree) : ofTokens? t.tokens = some t := by
  have h := foldlM_tokens t [] []
  rw [List.append_nil] at h
  rw [ofTokens?, h]
  rfl

theorem parse?_of_layout {t : Tree} {cs : List Char} (h : Token.Layout t.tokens cs) :
    parse? (String.ofList cs) = some t := by
  rw [parse?, String.toList_ofList, h.scan?, Option.bind_some, ofTokens?_tokens]

end HostRotation.Json.Tree
