import HostRotation.Properties.Document
import HostRotation.Proofs.Json.NumberTexts
import HostRotation.Proofs.Lists
import HostRotation.Proofs.Text.Bytes
import HostRotation.Proofs.Traversals

namespace HostRotation

namespace Json.Value

/-- The members of the object that a text is, as they are written. -/
def Members (content : String) (members : List (String × Value)) : Prop :=
  ∃ trees, Tree.parse? content = some (.object trees) ∧
    ofMembers? (maxDepth - 1) trees = some members

/-- The value of the last member with a key. -/
def LastMember (members : List (String × Value)) (key : String) (v : Value) : Prop :=
  LastWrite (fun m k w => m = (k, w)) members key v

variable {content : String} {members : List (String × Value)}

theorem ofTree?_object (trees : List (List Item × Tree)) :
    ofTree? maxDepth (.object trees) =
      (ofMembers? (maxDepth - 1) trees).map fun ms => .object (sortMembers ms) := by
  rw [maxDepth, ofTree?]

theorem Members.parse? (h : Members content members) :
    Value.parse? content = some (.object (sortMembers members)) := by
  obtain ⟨trees, htree, hmembers⟩ := h
  rw [Value.parse?, htree, Option.bind_some, ofTree?_object, hmembers, Option.map_some]

theorem exists_members {sorted : List (String × Value)}
    (h : Value.parse? content = some (.object sorted)) : ∃ members, Members content members := by
  obtain ⟨tree, htree, hvalue⟩ := Option.bind_eq_some_iff.1 h
  cases tree with
  | object trees =>
    rw [ofTree?_object] at hvalue
    obtain ⟨members, hmembers, -⟩ := Option.map_eq_some_iff.1 hvalue
    exact ⟨members, trees, htree, hmembers⟩
  | null | bool => cases hvalue
  | number | string | array =>
    rw [maxDepth, ofTree?] at hvalue
    obtain ⟨_, _, he⟩ := Option.map_eq_some_iff.1 hvalue
    cases he

theorem ofMembers?_append (depth : Nat) (ms ms' : List (List Item × Tree)) :
    ofMembers? depth (ms ++ ms') =
      (ofMembers? depth ms).bind fun vs => (ofMembers? depth ms').map (vs ++ ·) := by
  induction ms with
  | nil =>
    rw [List.nil_append, ofMembers?, Option.bind_some]
    simp
  | cons m ms ih =>
    obtain ⟨key, t⟩ := m
    rw [List.cons_append, ofMembers?, ofMembers?, ih]
    cases Item.text? key <;> cases ofTree? depth t <;> cases ofMembers? depth ms <;>
      cases ofMembers? depth ms' <;> rfl

theorem keys_of_ofMembers? {depth : Nat} {ms : List (List Item × Tree)}
    (h : ofMembers? depth ms = some members) :
    ms.map (fun m => Item.text? m.1) = members.map fun m => some m.1 := by
  induction ms generalizing members with
  | nil =>
    rw [ofMembers?] at h
    cases h
    rfl
  | cons m ms ih =>
    obtain ⟨name, t⟩ := m
    rw [ofMembers?] at h
    split at h
    · next hkey _ hms =>
      cases h
      rw [List.map_cons, List.map_cons, hkey, ih hms]
    · cases h

theorem lookup_eq_some_iff {key : String} {v : Value} :
    members.reverse.lookup key = some v ↔ LastMember members key v := by
  rw [LastMember, ← lookup_reverse_filterMap_eq_some_iff fun _ _ _ => Option.some_inj,
    List.filterMap_some]

theorem mem_sortMembers_iff {key : String} {v : Value} :
    (key, v) ∈ sortMembers members ↔ LastMember members key v := by
  rw [sortMembers, Std.ExtTreeMap.mem_toList_iff_getElem?_eq_some, Table.getElem?_ofList,
    lookup_eq_some_iff]

theorem sortMembers_sorted (members : List (String × Value)) :
    (sortMembers members).Pairwise fun a b => Text.bytes a.1 < Text.bytes b.1 :=
  Std.ExtTreeMap.ordered_keys_toList.imp Text.bytes_lt_of_compare

end Json.Value

namespace Properties

open Json (Value)

/-- The values that may be properties, with their texts. -/
inductive TextOf : Value → String → Prop where
  | string (s : String) : TextOf (.string s) s
  | number {n : Json.Number} {cs : List Char} (h : n.IsText cs) :
    TextOf (.number n) (String.ofList cs)
  | true : TextOf (.bool true) "true"
  | false : TextOf (.bool false) "false"

/-- The last member of each key is a text. -/
def AreTexts (members : List (String × Value)) : Prop :=
  ∀ key v, Value.LastMember members key v → ∃ text, TextOf v text

variable {v : Value} {text : String} {members : List (String × Value)}

theorem TextOf.valueText? (h : TextOf v text) : Properties.valueText? v = some text := by
  cases h with
  | number h => rw [Properties.valueText?, h.render_eq]
  | string | true | false => rfl

theorem valueText?_eq_some_iff : valueText? v = some text ↔ TextOf v text := by
  refine ⟨fun h => ?_, TextOf.valueText?⟩
  cases v with
  | string s =>
    obtain rfl := Option.some.inj h
    exact .string s
  | number n =>
    obtain rfl := Option.some.inj h
    exact .number (Json.Number.isText_iff.2 rfl)
  | bool b =>
    cases b with
    | true =>
      obtain rfl := Option.some.inj h
      exact .true
    | false =>
      obtain rfl := Option.some.inj h
      exact .false
  | null | array | object => cases h

theorem valueText?_eq_none_iff : valueText? v = none ↔ ∀ text, ¬TextOf v text := by
  simp only [Option.eq_none_iff_forall_ne_some, ne_eq, valueText?_eq_some_iff]

theorem ofMember_eq_error {key : String} (h : ∀ text, ¬TextOf v text) :
    ofMember (key, v) = .error (.badMember key v) := by
  rw [ofMember, valueText?_eq_none_iff.2 h]

theorem ofMember_eq_ok {key : String} (h : TextOf v text) :
    ofMember (key, v) = .ok (key, text) := by
  rw [ofMember, h.valueText?]

def texts (members : List (String × Value)) : Properties :=
  (Std.ExtTreeMap.ofList members compare : Table Value).filterMap fun _ v => valueText? v

theorem getElem?_texts (members : List (String × Value)) (key : String) :
    (texts members)[key]? = (members.reverse.lookup key).bind valueText? := by
  rw [texts, Std.ExtTreeMap.getElem?_filterMap', Table.getElem?_ofList]

theorem texts_nil : texts [] = ∅ := by
  apply Std.ExtTreeMap.ext_getElem?
  intro key
  rw [getElem?_texts]
  simp

theorem AreTexts.ofValue (h : AreTexts members) :
    Properties.ofValue (.object (Value.sortMembers members)) = .ok (texts members) := by
  have hmap : (Value.sortMembers members).mapM ofMember = .ok (texts members).toList := by
    rw [texts, Std.ExtTreeMap.toList_filterMap]
    apply mapM_of_forall_ok
    rintro ⟨key, v⟩ hm
    obtain ⟨text, ht⟩ := h key v (Value.mem_sortMembers_iff.1 hm)
    exact ⟨(key, text), ofMember_eq_ok ht, by rw [ht.valueText?]; rfl⟩
  rw [Properties.ofValue, hmap]
  exact congrArg Except.ok (Table.ofList_eq_of_perm (.refl _))

/-- The last member of its key is no text, and all others like it have keys with greater bytes. -/
structure FirstBad (members : List (String × Value)) (key : String) (v : Value) : Prop where
  last : Value.LastMember members key v
  bad : ∀ text, ¬TextOf v text
  least : ∀ other w, Value.LastMember members other w → (∀ text, ¬TextOf w text) → other ≠ key →
    Text.bytes key < Text.bytes other

theorem FirstBad.ofValue {key : String} (h : FirstBad members key v) :
    Properties.ofValue (.object (Value.sortMembers members)) = .error (.badMember key v) := by
  have hmem := Value.mem_sortMembers_iff.2 h.last
  have hsorted := Value.sortMembers_sorted members
  obtain ⟨before, after, hsplit⟩ := List.append_of_mem hmem
  -- a bad member before it would have a key with lesser bytes
  have hbefore : ∀ m ∈ before, ∃ e, ofMember m = .ok e := by
    rintro ⟨other, w⟩ hm
    have hlast : Value.LastMember members other w := by
      rw [← Value.mem_sortMembers_iff, hsplit]
      exact List.mem_append_left _ hm
    have hlt : Text.bytes other < Text.bytes key := by
      rw [hsplit] at hsorted
      exact (List.pairwise_append.1 hsorted).2.2 _ hm _ List.mem_cons_self
    by_contra hno
    have hbad : ∀ text, ¬TextOf w text := fun text ht => hno ⟨_, ofMember_eq_ok ht⟩
    have hne : other ≠ key := by
      rintro rfl
      exact List.lt_irrefl _ hlt
    exact List.lt_asymm (h.least other w hlast hbad hne) hlt
  rw [Properties.ofValue, hsplit, mapM_of_first_error hbefore (ofMember_eq_error h.bad)]
  rfl

theorem areTexts_or_firstBad (members : List (String × Value)) :
    AreTexts members ∨ ∃ key v, FirstBad members key v := by
  rcases forall_ok_or_first_error ofMember (Value.sortMembers members) with
    hall | ⟨before, ⟨key, v⟩, after, e, hsplit, hbefore, he⟩
  · left
    intro key v hlast
    by_contra hno
    obtain ⟨e, he⟩ := hall _ (Value.mem_sortMembers_iff.2 hlast)
    rw [ofMember_eq_error (by simpa using hno)] at he
    cases he
  · right
    have hsorted := Value.sortMembers_sorted members
    rw [hsplit] at hsorted
    have hafter := (List.pairwise_cons.1 (List.pairwise_append.1 hsorted).2.1).1
    refine ⟨key, v, ?_, ?_, ?_⟩
    · rw [← Value.mem_sortMembers_iff, hsplit]
      exact List.mem_append_right _ List.mem_cons_self
    · intro text ht
      rw [ofMember_eq_ok ht] at he
      cases he
    · intro other w hlast hbad hne
      have hmem := Value.mem_sortMembers_iff.2 hlast
      rw [hsplit] at hmem
      rcases List.mem_append.1 hmem with hmem | hmem
      · obtain ⟨_, hok⟩ := hbefore _ hmem
        rw [ofMember_eq_error hbad] at hok
        cases hok
      · rcases List.mem_cons.1 hmem with hmem | hmem
        · cases hmem
          exact absurd rfl hne
        · exact hafter _ hmem

theorem ofValue_eq_ok {p : Properties}
    (h : ofValue (.object (Value.sortMembers members)) = .ok p) :
    AreTexts members ∧ p = texts members := by
  rcases areTexts_or_firstBad members with htexts | ⟨key, v, hbad⟩
  · exact ⟨htexts, Except.ok.inj (h.symm.trans htexts.ofValue)⟩
  · cases h.symm.trans hbad.ofValue

theorem lookup_append_cons {before after : List (String × Value)} {key : String}
    (h : ∀ m ∈ after, m.1 ≠ key) (v : Value) (k : String) :
    (before ++ (key, v) :: after).reverse.lookup k =
      if key = k then some v else (before ++ after).reverse.lookup k := by
  have hafter : after.reverse.lookup key = none := by
    rw [List.lookup_eq_none_iff]
    exact fun m hm => bne_iff_ne.2 (h m (List.mem_reverse.1 hm)).symm
  rw [List.reverse_append, List.reverse_cons, List.reverse_append, List.append_assoc,
    List.lookup_append, List.lookup_append, List.lookup_append]
  split
  · next hk =>
    subst hk
    rw [hafter]
    simp
  · next hk =>
    rw [List.lookup_cons, beq_eq_false_iff_ne.2 (Ne.symm hk), List.lookup_nil, Option.none_or]

theorem ofValue_append_cons {before after : List (String × Value)} {key : String}
    {p : Properties} (h : ∀ m ∈ after, m.1 ≠ key) (ht : TextOf v text)
    (hp : ofValue (.object (Value.sortMembers (before ++ after))) = .ok p) :
    ofValue (.object (Value.sortMembers (before ++ (key, v) :: after))) =
      .ok (p.insert key text) := by
  obtain ⟨htexts, rfl⟩ := ofValue_eq_ok hp
  have htexts' : AreTexts (before ++ (key, v) :: after) := by
    intro k w hlast
    rw [← Value.lookup_eq_some_iff, lookup_append_cons h] at hlast
    split at hlast
    · cases hlast
      exact ⟨text, ht⟩
    · exact htexts k w (Value.lookup_eq_some_iff.1 hlast)
  rw [htexts'.ofValue]
  refine congrArg Except.ok (Std.ExtTreeMap.ext_getElem? fun k => ?_)
  rw [getElem?_texts, lookup_append_cons h, Std.ExtTreeMap.getElem?_insert, getElem?_texts]
  simp only [Std.LawfulEqCmp.compare_eq_iff_eq]
  split
  · exact ht.valueText?
  · rfl

def stringMembers (entries : List (String × String)) : List (String × Value) :=
  entries.map fun e => (e.1, .string e.2)

theorem lookup_stringMembers (entries : List (String × String)) (key : String) :
    (stringMembers entries).lookup key = (entries.lookup key).map .string := by
  induction entries with
  | nil => rfl
  | cons e entries ih =>
    rw [stringMembers] at ih
    rw [stringMembers, List.map_cons, List.lookup_cons, List.lookup_cons, ih]
    cases key == e.1 <;> rfl

theorem ofValue_stringMembers (entries : List (String × String)) :
    ofValue (.object (Value.sortMembers (stringMembers entries))) = .ok (.ofList entries) := by
  have hreverse : (stringMembers entries).reverse = stringMembers entries.reverse :=
    (List.map_reverse ..).symm
  have htexts : AreTexts (stringMembers entries) := by
    intro key v hlast
    rw [← Value.lookup_eq_some_iff, hreverse, lookup_stringMembers] at hlast
    obtain ⟨text, -, rfl⟩ := Option.map_eq_some_iff.1 hlast
    exact ⟨text, .string text⟩
  rw [htexts.ofValue]
  refine congrArg Except.ok (Std.ExtTreeMap.ext_getElem? fun key => ?_)
  rw [getElem?_texts, Table.getElem?_ofList, hreverse, lookup_stringMembers]
  cases entries.reverse.lookup key <;> rfl

end Properties
end HostRotation
