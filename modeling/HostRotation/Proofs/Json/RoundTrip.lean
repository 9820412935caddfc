import HostRotation.Json.Value
import HostRotation.Proofs.Json.Trees

namespace HostRotation.Json

structure Number.Legible (n : Number) : Prop where
  literal : n.literal.Legible
  value : Number.ofLiteral? n.literal = some n

namespace Value

/-- A value with legible numbers, in which arrays and objects are nested at most so deep. -/
inductive Legible : Nat → Value → Prop where
  | null {depth : Nat} : Legible depth .null
  | bool {depth : Nat} (b : Bool) : Legible depth (.bool b)
  | number {depth : Nat} {n : Number} (h : n.Legible) : Legible depth (.number n)
  | string {depth : Nat} (s : String) : Legible depth (.string s)
  | array {depth : Nat} {elements : List Value} (h : ∀ v ∈ elements, Legible depth v) :
    Legible (depth + 1) (.array elements)
  | object {depth : Nat} {members : List (String × Value)} (h : ∀ m ∈ members, Legible depth m.2) :
    Legible (depth + 1) (.object members)

mutual

def toTree : Value → Tree
  | .null => .null
  | .bool b => .bool b
  | .number n => .number n.literal
  | .string s => .string (Item.ofText s)
  | .array elements => .array (elementTrees elements)
  | .object members => .object (memberTrees members)

def elementTrees : List Value → List Tree
  | [] => []
  | v :: vs => toTree v :: elementTrees vs

def memberTrees : List (String × Value) → List (List Item × Tree)
  | [] => []
  | (key, v) :: ms => (Item.ofText key, toTree v) :: memberTrees ms

end

/-! ### From tokens to the tree -/

mutual

theorem tokens_toTree (v : Value) : v.toTree.tokens = v.tokens := by
  match v with
  | .null | .bool _ | .number _ | .string _ => rfl
  | .array elements => rw [toTree, Tree.tokens, elementTokens_elementTrees, tokens]
  | .object members => rw [toTree, Tree.tokens, memberTokens_memberTrees, tokens]

theorem elementTokens_elementTrees (vs : List Value) :
    Tree.elementTokens (elementTrees vs) = elementTokens vs := by
  match vs with
  | [] => rfl
  | [v] => exact tokens_toTree v
  | v :: w :: vs =>
    have ih := elementTokens_elementTrees (w :: vs)
    rw [elementTrees] at ih
    simp only [elementTrees, Tree.elementTokens, elementTokens, tokens_toTree v, ih]

theorem memberTokens_memberTrees (ms : List (String × Value)) :
    Tree.memberTokens (memberTrees ms) = memberTokens ms := by
  match ms with
  | [] => rfl
  | [(key, v)] => simp only [memberTrees, Tree.memberTokens, memberTokens, tokens_toTree v]
  | (key, v) :: m :: ms =>
    have ih := memberTokens_memberTrees (m :: ms)
    rw [memberTrees] at ih
    simp only [memberTrees, Tree.memberTokens, memberTokens, tokens_toTree v, ih]

end

/-! ### From the text to the tokens -/

open Token (Layout)

/-- A text that does not go on with a word or a number. -/
def Breaks (rest : List Char) : Prop :=
  ∀ c ∈ rest.head?, Token.isLetter c = false ∧ NumberLiteral.isNumberChar c = false

theorem breaks_cons {c : Char} (h : Token.isLetter c = false ∧ NumberLiteral.isNumberChar c = false)
    (rest : List Char) : Breaks (c :: rest) := by
  rintro _ ⟨⟩
  exact h

def IsSpace (cs : List Char) : Prop :=
  ∀ c ∈ cs, Token.isSpace c

theorem isSpace_nil : IsSpace [] :=
  nofun

theorem breaks_space_append {space rest : List Char} (hs : IsSpace space) (hr : Breaks rest) :
    Breaks (space ++ rest) := by
  cases space with
  | nil => exact hr
  | cons c space =>
    refine breaks_cons ?_ _
    have hc := hs c List.mem_cons_self
    simp only [Token.isSpace, Bool.or_eq_true, beq_iff_eq, or_assoc] at hc
    rcases hc with rfl | rfl | rfl | rfl <;> decide

/-- Characters that lay out tokens in front of every text that does not run on. -/
def Spells (cs : List Char) (tokens : List Token) : Prop :=
  ∀ ts rest, Breaks rest → Layout ts rest → Layout (tokens ++ ts) (cs ++ rest)

namespace Spells

variable {cs cs' space : List Char} {tokens tokens' : List Token} {t : Token}

theorem nil : Spells [] [] :=
  fun _ _ _ h => h

theorem single (ht : t.Legible) : Spells t.render [t] := by
  intro ts rest hb h
  refine .token ht ?_ h
  cases t with
  | null | bool => exact fun c hc => (hb c hc).1
  | number => exact fun c hc => (hb c hc).2
  | openArray | closeArray | openObject | closeObject | comma | colon | string => trivial

theorem cons (ht : t.Legible) (he : ∀ rest, t.EndsBefore rest) (h : Spells cs tokens) :
    Spells (t.render ++ cs) (t :: tokens) := by
  intro ts rest hb hl
  rw [List.append_assoc]
  exact .token ht (he _) (h ts rest hb hl)

theorem spaced (hs : IsSpace space) (h : Spells cs tokens) : Spells (space ++ cs) tokens := by
  intro ts rest hb hl
  rw [List.append_assoc]
  induction space with
  | nil => exact h ts rest hb hl
  | cons c space ih =>
    exact .space (hs c List.mem_cons_self) (ih fun d hd => hs d (List.mem_cons_of_mem c hd))

theorem comma (h : Spells cs tokens) (h' : Spells cs' tokens') :
    Spells (cs ++ ',' :: cs') (tokens ++ .comma :: tokens') := by
  intro ts rest hb hl
  rw [List.append_assoc, List.append_assoc]
  refine h _ _ (breaks_cons (by decide) _) ?_
  exact .token (t := .comma) trivial trivial (h' ts rest hb hl)

theorem member (key : String) (hs : IsSpace space) (h : Spells cs tokens) :
    Spells (quotedText key ++ ':' :: (space ++ cs))
      (.string (Item.ofText key) :: .colon :: tokens) := by
  refine cons ⟨key, rfl⟩ (fun _ => trivial) ?_
  exact cons (t := .colon) trivial (fun _ => trivial) (spaced hs h)

theorem closed {last : Char} (ht : t.Legible) (hlast : t.render = [last])
    (hbreak : Token.isLetter last = false ∧ NumberLiteral.isNumberChar last = false)
    (hs : IsSpace space) (h : Spells cs tokens) :
    Spells (cs ++ (space ++ [last])) (tokens ++ [t]) := by
  intro ts rest hb hl
  have hclose := spaced hs (single ht) ts rest hb hl
  rw [hlast] at hclose
  rw [List.append_assoc, List.append_assoc, List.append_assoc]
  rw [List.append_assoc] at hclose
  exact h _ _ (breaks_space_append hs (breaks_cons hbreak rest)) hclose

theorem array (hs : IsSpace space) (h : Spells cs tokens) :
    Spells ('[' :: (cs ++ (space ++ [']']))) (.openArray :: tokens ++ [.closeArray]) :=
  cons (t := .openArray) trivial (fun _ => trivial)
    (closed (t := .closeArray) trivial rfl (by decide) hs h)

theorem object (hs : IsSpace space) (h : Spells cs tokens) :
    Spells ('\x7b' :: (cs ++ (space ++ ['\x7d']))) (.openObject :: tokens ++ [.closeObject]) :=
  cons (t := .openObject) trivial (fun _ => trivial)
    (closed (t := .closeObject) trivial rfl (by decide) hs h)

theorem number {l : NumberLiteral} (h : NumberLiteral.Writes cs l) : Spells cs [.number l] :=
  fun _ _ hb hl => .number h (fun c hc => (hb c hc).2) hl

theorem text (s : String) : Spells (quotedText s) [.string (Item.ofText s)] :=
  single ⟨s, rfl⟩

theorem members {members : List (String × List Char × Tree)}
    (h : ∀ m ∈ members, Spells m.2.1 m.2.2.tokens) :
    Spells ([','].intercalate (members.map fun m => quotedText m.1 ++ ':' :: m.2.1))
      (Tree.memberTokens (members.map fun m => (Item.ofText m.1, m.2.2))) := by
  induction members with
  | nil => exact .nil
  | cons m members ih =>
    have hm := Spells.member m.1 isSpace_nil (h m List.mem_cons_self)
    have hms := ih fun m' hm => h m' (List.mem_cons_of_mem m hm)
    cases members with
    | nil => simpa [Tree.memberTokens] using hm
    | cons m' members => simpa [Tree.memberTokens] using hm.comma hms

end Spells

theorem spells_flatMap_elementTokens {vs : List Value}
    (h : ∀ v ∈ vs, Spells (v.tokens.flatMap Token.render) v.tokens) :
    Spells ((elementTokens vs).flatMap Token.render) (elementTokens vs) := by
  induction vs with
  | nil => exact .nil
  | cons v vs ih =>
    have hv := h v List.mem_cons_self
    have hvs := ih fun w hw => h w (List.mem_cons_of_mem v hw)
    cases vs with
    | nil => rwa [elementTokens]
    | cons w vs =>
      rw [elementTokens, List.flatMap_append, List.flatMap_cons]
      · exact hv.comma hvs
      · nofun

theorem spells_flatMap_memberTokens {ms : List (String × Value)}
    (h : ∀ m ∈ ms, Spells (m.2.tokens.flatMap Token.render) m.2.tokens) :
    Spells ((memberTokens ms).flatMap Token.render) (memberTokens ms) := by
  induction ms with
  | nil => exact .nil
  | cons m ms ih =>
    obtain ⟨key, v⟩ := m
    have hv := Spells.member key isSpace_nil (h (key, v) List.mem_cons_self)
    have hms := ih fun m hm => h m (List.mem_cons_of_mem _ hm)
    cases ms with
    | nil => exact hv
    | cons m ms =>
      rw [memberTokens, List.flatMap_append, List.flatMap_cons]
      · exact hv.comma hms
      · nofun

variable {depth : Nat} {v : Value}

theorem spells_compact (h : Legible depth v) : Spells (v.tokens.flatMap Token.render) v.tokens := by
  have one {t : Token} (ht : t.Legible) : Spells ([t].flatMap Token.render) [t] := by
    rw [List.flatMap_singleton]
    exact .single ht
  induction h with
  | null | bool b => exact one trivial
  | number h => exact one h.literal
  | string s => exact one ⟨s, rfl⟩
  | array h ih =>
    simpa [tokens, Token.render] using Spells.array isSpace_nil (spells_flatMap_elementTokens ih)
  | object h ih =>
    simpa [tokens, Token.render] using Spells.object isSpace_nil (spells_flatMap_memberTokens ih)

theorem isSpace_newline (n : Nat) : IsSpace (newline n) := by
  intro c hc
  rcases List.mem_cons.1 hc with rfl | hc
  · rfl
  · rw [List.eq_of_mem_replicate hc]
    rfl

theorem spells_prettyElements {vs : List Value} {n : Nat}
    (h : ∀ v ∈ vs, Spells (prettyChars n v) v.tokens) :
    Spells (prettyElements n vs) (elementTokens vs) := by
  induction vs with
  | nil => exact .nil
  | cons v vs ih =>
    have hv := (h v List.mem_cons_self).spaced (isSpace_newline n)
    have hvs := ih fun w hw => h w (List.mem_cons_of_mem v hw)
    cases vs with
    | nil => exact hv
    | cons w vs =>
      rw [prettyElements, elementTokens]
      · exact hv.comma hvs
      · nofun
      · nofun

theorem spells_prettyMembers {ms : List (String × Value)} {n : Nat}
    (h : ∀ m ∈ ms, Spells (prettyChars n m.2) m.2.tokens) :
    Spells (prettyMembers n ms) (memberTokens ms) := by
  have hspace : IsSpace [' '] := by
    intro c hc
    rw [List.mem_singleton.1 hc]
    rfl
  induction ms with
  | nil => exact .nil
  | cons m ms ih =>
    obtain ⟨key, v⟩ := m
    have hv := (Spells.member key hspace (h (key, v) List.mem_cons_self)).spaced (isSpace_newline n)
    have hms := ih fun m hm => h m (List.mem_cons_of_mem _ hm)
    cases ms with
    | nil => simpa [prettyMembers, memberTokens] using hv
    | cons m ms =>
      rw [prettyMembers, memberTokens]
      · simpa using hv.comma hms
      · nofun
      · nofun

theorem spells_pretty (h : Legible depth v) (n : Nat) : Spells (prettyChars n v) v.tokens := by
  induction h generalizing n with
  | null => exact spells_compact (.null : Legible 0 _)
  | bool b => exact spells_compact (.bool b : Legible 0 _)
  | number h => exact spells_compact (.number h : Legible 0 _)
  | string s => exact spells_compact (.string s : Legible 0 _)
  | @array depth elements h ih =>
    cases elements with
    | nil => exact spells_compact (.array h)
    | cons v vs =>
      have hvs := spells_prettyElements fun w hw => ih w hw (n + 1)
      simpa [prettyChars, tokens] using Spells.array (isSpace_newline n) hvs
  | @object depth members h ih =>
    cases members with
    | nil => exact spells_compact (.object h)
    | cons m ms =>
      have hms := spells_prettyMembers fun m hm => ih m hm (n + 1)
      simpa [prettyChars, tokens] using Spells.object (isSpace_newline n) hms

/-! ### From the tree to the value -/

theorem ofTree?_toTree (h : Legible depth v) : ofTree? depth v.toTree = some v.sorted := by
  induction h with
  | null | bool b => rfl
  | number h =>
    rw [toTree, ofTree?, h.value]
    rfl
  | string s =>
    rw [toTree, ofTree?, Item.text?_ofText]
    rfl
  | @array depth elements h ih =>
    have hvs : ofTrees? depth (elementTrees elements) = some (sortedElements elements) := by
      clear h
      induction elements with
      | nil => rfl
      | cons v vs ihs =>
        rw [elementTrees, ofTrees?, ih v List.mem_cons_self,
          ihs fun w hw => ih w (List.mem_cons_of_mem v hw), sortedElements]
    rw [toTree, ofTree?, hvs, sorted, Option.map_some]
  | @object depth members h ih =>
    have hms : ofMembers? depth (memberTrees members) = some (sortedMembers members) := by
      clear h
      induction members with
      | nil => rfl
      | cons m ms ihs =>
        rw [memberTrees, ofMembers?, Item.text?_ofText, ih m List.mem_cons_self,
          ihs fun m' hm => ih m' (List.mem_cons_of_mem m hm), sortedMembers]
    rw [toTree, ofTree?, hms, sorted, Option.map_some]

/-- A text in which a value is spelled, with white space after it or not, is read as its tree. -/
theorem tree_parse?_of_spells_append {cs space : List Char} (h : Spells cs v.tokens)
    (hs : IsSpace space) : Tree.parse? (String.ofList (cs ++ space)) = some v.toTree := by
  have hnone : Breaks [] := nofun
  have hbreaks := breaks_space_append hs hnone
  have hend := Spells.spaced hs .nil [] [] nofun .nil
  simp only [List.append_nil] at hbreaks hend
  have hlayout := h [] space hbreaks hend
  rw [List.append_nil] at hlayout
  rw [← tokens_toTree] at hlayout
  exact Tree.parse?_of_layout hlayout

theorem tree_parse?_of_spells {cs : List Char} (h : Spells cs v.tokens) :
    Tree.parse? (String.ofList cs) = some v.toTree := by
  simpa using tree_parse?_of_spells_append h isSpace_nil

theorem parse?_compact (h : Legible maxDepth v) : parse? v.compact = some v.sorted := by
  rw [parse?, compact, tree_parse?_of_spells (spells_compact h), Option.bind_some,
    ofTree?_toTree h]

theorem parse?_pretty (h : Legible maxDepth v) : parse? v.pretty = some v.sorted := by
  rw [parse?, pretty, tree_parse?_of_spells (spells_pretty h 0), Option.bind_some, ofTree?_toTree h]

end Value
end HostRotation.Json
