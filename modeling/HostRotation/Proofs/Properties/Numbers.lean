import HostRotation.Proofs.Config.NumberSettings
import HostRotation.Proofs.Json.Numbers
import HostRotation.Proofs.Json.RoundTrip
import HostRotation.Proofs.Properties.Documents
import HostRotation.Proofs.Selection.Positions

namespace HostRotation

open Json (Value Tree Item Number NumberLiteral)

/-! ### The range of a setting -/

namespace NumberSetting

/-- A literal that the setting takes: a count in its range, written as such. -/
def Allows (s : NumberSetting) (l : NumberLiteral) : Prop :=
  l.isWhole ∧ ¬l.negative ∧ 0 < Text.decimalValue l.whole ∧ Text.decimalValue l.whole < s.bound

variable {s : NumberSetting} {l : NumberLiteral} {n : Number}

theorem bound_le (s : NumberSetting) : s.bound ≤ UInt64.size := by
  cases s <;> decide

theorem Allows.ofLiteral? (h : s.Allows l) :
    Number.ofLiteral? l = some (.integer (Text.decimalValue l.whole)) := by
  obtain ⟨hwhole, hsign, -, hlt⟩ := h
  rw [← Text.digitsValue_eq_decimalValue] at hlt ⊢
  rw [Number.ofLiteral?, if_pos ⟨hwhole, hsign, Nat.lt_of_lt_of_le hlt s.bound_le⟩]

theorem ofList_render_natCast (n : Nat) :
    String.ofList (Number.integer n).render = Text.numeral n := by
  simp [Number.render, NumberLiteral.render, Text.numeral]

theorem not_inRange_render (hn : Number.ofLiteral? l = some n) (h : ¬s.Allows l) :
    ¬Config.InRange s.bound (String.ofList n.render) := by
  rintro ⟨m, hpos, hlt, hm⟩
  -- a count of 64 bits is out of the setting's range itself; other numbers have another character
  by_cases hcount : l.isWhole ∧ ¬l.negative ∧ Text.digitsValue l.whole < UInt64.size
  · rw [Number.ofLiteral?, if_pos hcount] at hn
    obtain rfl := Option.some.inj hn
    rw [ofList_render_natCast] at hm
    obtain rfl := hm.unique (Text.denotes_numeral _)
    rw [Text.digitsValue_eq_decimalValue] at hpos hlt
    exact h ⟨hcount.1, hcount.2.1, hpos, hlt⟩
  · exact Number.not_denotes_render hn hcount m hm

end NumberSetting

/-! ### The member of a setting -/

namespace Properties

def ofTree (t : Tree) : Except DocumentFault Properties :=
  match Value.ofTree? Value.maxDepth t with
  | some v => ofValue v
  | none => .error .notJson

theorem ofDocument_of_tree {content : String} {t : Tree} (h : Tree.parse? content = some t) :
    ofDocument content = ofTree t := by
  rw [ofDocument, Value.parse?, h, Option.bind_some]
  rfl

theorem ofTree_object {trees : List (List Item × Tree)} {members : List (String × Value)}
    (h : Value.ofMembers? (Value.maxDepth - 1) trees = some members) :
    ofTree (.object trees) = ofValue (.object (Value.sortMembers members)) := by
  rw [ofTree, Value.ofTree?_object, h, Option.map_some]

variable {before after : List (List Item × Tree)} {name : List Item} {key : String}
  {l : NumberLiteral} {p : Properties}

theorem exists_members_around (hp : ofTree (.object (before ++ after)) = .ok p) :
    ∃ ms ms', Value.ofMembers? (Value.maxDepth - 1) before = some ms ∧
      Value.ofMembers? (Value.maxDepth - 1) after = some ms' ∧
      ofValue (.object (Value.sortMembers (ms ++ ms'))) = .ok p := by
  cases hms : Value.ofMembers? (Value.maxDepth - 1) (before ++ after) with
  | none =>
    rw [ofTree, Value.ofTree?_object, hms] at hp
    cases hp
  | some members =>
    rw [ofTree_object hms] at hp
    rw [Value.ofMembers?_append] at hms
    obtain ⟨ms, hbefore, hrest⟩ := Option.bind_eq_some_iff.1 hms
    obtain ⟨ms', hafter, rfl⟩ := Option.map_eq_some_iff.1 hrest
    exact ⟨ms, ms', hbefore, hafter, hp⟩

theorem ofTree_of_no_number (hl : Number.ofLiteral? l = none) :
    ofTree (.object (before ++ (name, .number l) :: after)) = .error .notJson := by
  have hnone : Value.ofMembers? (Value.maxDepth - 1) ((name, .number l) :: after) = none := by
    rw [Value.ofMembers?, Value.ofTree?, hl, Option.map_none]
    cases Item.text? name <;> rfl
  rw [ofTree, Value.ofTree?_object, Value.ofMembers?_append, hnone]
  cases Value.ofMembers? (Value.maxDepth - 1) before <;> rfl

theorem ofTree_of_number {n : Number} (hname : Item.text? name = some key)
    (hafter : ∀ m ∈ after, Item.text? m.1 ≠ some key) (hl : Number.ofLiteral? l = some n)
    (hp : ofTree (.object (before ++ after)) = .ok p) :
    ofTree (.object (before ++ (name, .number l) :: after)) =
      .ok (p.insert key (String.ofList n.render)) := by
  obtain ⟨ms, ms', hms, hms', hvalue⟩ := exists_members_around hp
  have hkeys : ∀ m ∈ ms', m.1 ≠ key := by
    rintro ⟨k, v⟩ hm rfl
    have hmem : some k ∈ after.map fun m => Item.text? m.1 := by
      rw [Value.keys_of_ofMembers? hms']
      exact List.mem_map_of_mem hm
    obtain ⟨m, hmafter, hk⟩ := List.mem_map.1 hmem
    exact hafter m hmafter hk
  have hmembers : Value.ofMembers? (Value.maxDepth - 1) (before ++ (name, .number l) :: after) =
      some (ms ++ (key, .number n) :: ms') := by
    rw [Value.ofMembers?_append, hms, Value.ofMembers?, hname, Value.ofTree?, hl, hms']
    rfl
  rw [ofTree_object hmembers]
  exact ofValue_append_cons hkeys (.number (Number.isText_iff.2 rfl)) hvalue

end Properties

/-! ### How reading ends -/

namespace NumberSetting

/-- A text with a literal for a setting, which is the document of a configuration without it. -/
def HoldsLiteral (s : NumberSetting) (l : NumberLiteral) (c : Config) (content : String) : Prop :=
  ∃ before name after,
    Tree.parse? content = some (.object (before ++ (name, .number l) :: after)) ∧
    Item.text? name = some s.key ∧ (∀ m ∈ after, Item.text? m.1 ≠ some s.key) ∧
    (Properties.ofTree (.object (before ++ after))).map Config.ofProperties = .ok (.ok c)

/-- How reading ends: with the value of the literal for the setting, or refused for the literal. -/
structure Settles (s : NumberSetting) (l : NumberLiteral) (c : Config)
    (r : Except DocumentFault (Except ConfigError Config)) : Prop where
  succeeds : (∃ c', r = .ok (.ok c')) ↔ s.Allows l
  value : ∀ c', r = .ok (.ok c') → s.Changes c (Text.decimalValue l.whole) c'
  fails : ¬s.Allows l → Number.ofLiteral? l = none ∧ r = .error .notJson ∨
    ∃ n, Number.ofLiteral? l = some n ∧ r = .ok (.error (s.error (String.ofList n.render)))

variable {s : NumberSetting} {l : NumberLiteral} {c : Config} {content : String}

theorem settles_of_allows (h : s.Allows l) {c' : Config}
    (hc' : s.Changes c (Text.decimalValue l.whole) c') : s.Settles l c (.ok (.ok c')) where
  succeeds := ⟨fun _ => h, fun _ => ⟨c', rfl⟩⟩
  value := by
    rintro _ ⟨⟩
    exact hc'
  fails hn := absurd h hn

theorem settles_of_not_allows (h : ¬s.Allows l)
    {r : Except DocumentFault (Except ConfigError Config)} (hr : ∀ c', r ≠ .ok (.ok c'))
    (hfails : Number.ofLiteral? l = none ∧ r = .error .notJson ∨
      ∃ n, Number.ofLiteral? l = some n ∧ r = .ok (.error (s.error (String.ofList n.render)))) :
    s.Settles l c r where
  succeeds := ⟨fun ⟨c', hc'⟩ => absurd hc' (hr c'), fun hs => absurd hs h⟩
  value c' hc' := absurd hc' (hr c')
  fails _ := hfails

theorem HoldsLiteral.settles (h : s.HoldsLiteral l c content) :
    s.Settles l c ((Properties.ofDocument content).map Config.ofProperties) := by
  obtain ⟨before, name, after, htree, hname, hafter, hc⟩ := h
  rw [Properties.ofDocument_of_tree htree]
  cases hp : Properties.ofTree (.object (before ++ after)) with
  | error e =>
    rw [hp] at hc
    cases hc
  | ok p =>
    rw [hp] at hc
    have hgiven : Config.Given p c := Config.given_of_ofProperties (Except.ok.inj hc)
    by_cases hs : s.Allows l
    · have hl := hs.ofLiteral?
      rw [Properties.ofTree_of_number hname hafter hl hp, ofList_render_natCast]
      obtain ⟨c', hc', hread⟩ :=
        hgiven.ofProperties_insert s hs.2.2.1 hs.2.2.2 (Text.denotes_numeral _)
      rw [Except.map, hread]
      exact settles_of_allows hs hc'
    · cases hl : Number.ofLiteral? l with
      | none =>
        rw [Properties.ofTree_of_no_number hl]
        exact settles_of_not_allows hs nofun (.inl ⟨hl, rfl⟩)
      | some n =>
        have hread := hgiven.accepted.ofProperties_insert s (not_inRange_render hl hs)
        rw [Properties.ofTree_of_number hname hafter hl hp, Except.map, hread]
        exact settles_of_not_allows hs (by simp) (.inr ⟨n, hl, rfl⟩)

end NumberSetting

/-! ### Texts with a literal -/

namespace Properties

def objectText (members : List (String × List Char)) : String :=
  String.ofList ('\x7b' ::
    ([','].intercalate (members.map fun m => Value.quotedText m.1 ++ ':' :: m.2) ++ ['\x7d']))

def textWith (before : List (String × String)) (key : String) (literal : List Char)
    (after : List (String × String)) : String :=
  objectText (before.map (fun e => (e.1, Value.quotedText e.2)) ++
    (key, literal) :: after.map fun e => (e.1, Value.quotedText e.2))

theorem parse?_objectText {members : List (String × List Char × Tree)}
    (h : ∀ m ∈ members, Value.Spells m.2.1 m.2.2.tokens) :
    Tree.parse? (objectText (members.map fun m => (m.1, m.2.1))) =
      some (.object (members.map fun m => (Item.ofText m.1, m.2.2))) := by
  have hspells := Value.Spells.object Value.isSpace_nil (Value.Spells.members h)
  have hlayout := hspells [] [] nofun .nil
  rw [List.append_nil, List.append_nil, List.nil_append] at hlayout
  rw [objectText, List.map_map]
  exact Tree.parse?_of_layout (by rwa [Tree.tokens])

def stringTrees (entries : List (String × String)) : List (List Item × Tree) :=
  entries.map fun e => (Item.ofText e.1, .string (Item.ofText e.2))

def spelledMember (e : String × String) : String × List Char × Tree :=
  (e.1, Value.quotedText e.2, .string (Item.ofText e.2))

theorem spells_spelledMember {entries : List (String × String)} :
    ∀ m ∈ entries.map spelledMember, Value.Spells m.2.1 m.2.2.tokens := by
  intro m hm
  obtain ⟨e, -, rfl⟩ := List.mem_map.1 hm
  exact .text e.2

theorem parse?_textWith {l : NumberLiteral} {ds : List Char} (h : NumberLiteral.Writes ds l)
    (before after : List (String × String)) (key : String) :
    Tree.parse? (textWith before key ds after) =
      some (.object (stringTrees before ++ (Item.ofText key, .number l) :: stringTrees after)) := by
  have hmembers : ∀ m ∈ before.map spelledMember ++
      (key, ds, .number l) :: after.map spelledMember, Value.Spells m.2.1 m.2.2.tokens :=
    List.forall_mem_append.2 ⟨spells_spelledMember,
      List.forall_mem_cons.2 ⟨Value.Spells.number h, spells_spelledMember⟩⟩
  have hparse := parse?_objectText hmembers
  simpa [textWith, stringTrees, spelledMember, Function.comp_def] using hparse

theorem ofMembers?_stringTrees (depth : Nat) (entries : List (String × String)) :
    Value.ofMembers? depth (stringTrees entries) = some (stringMembers entries) := by
  induction entries with
  | nil =>
    rw [stringTrees, List.map_nil, Value.ofMembers?]
    rfl
  | cons e entries ih =>
    rw [stringTrees] at ih
    rw [stringTrees, List.map_cons, Value.ofMembers?, Item.text?_ofText, Value.ofTree?,
      Item.text?_ofText, ih]
    rfl

theorem ofTree_stringTrees (entries : List (String × String)) :
    ofTree (.object (stringTrees entries)) = .ok (.ofList entries) := by
  rw [ofTree_object (ofMembers?_stringTrees _ entries), ofValue_stringMembers]

end Properties

namespace NumberSetting

variable {s : NumberSetting} {l : NumberLiteral} {c : Config}

theorem holdsLiteral_textWith {ds : List Char} (h : NumberLiteral.Writes ds l)
    {before after : List (String × String)} (hafter : ∀ e ∈ after, e.1 ≠ s.key)
    (hc : Config.ofProperties (.ofList (before ++ after)) = .ok c) :
    s.HoldsLiteral l c (Properties.textWith before s.key ds after) := by
  refine ⟨_, _, _, Properties.parse?_textWith h before after s.key, Item.text?_ofText s.key, ?_, ?_⟩
  · intro m hm
    obtain ⟨e, he, rfl⟩ := List.mem_map.1 hm
    rw [Item.text?_ofText, ne_eq, Option.some.injEq]
    exact hafter e he
  · have happend : Properties.stringTrees before ++ Properties.stringTrees after =
        Properties.stringTrees (before ++ after) := (List.map_append ..).symm
    rw [happend, Properties.ofTree_stringTrees]
    exact congrArg Except.ok hc

/-- No literal is altered on its way to a setting, wherever it stands in a document: it is the
setting's value, or the document is refused. Every way to write a literal has such documents. -/
theorem literals_unaltered (s : NumberSetting) (l : NumberLiteral) (c : Config) :
    (∀ content, s.HoldsLiteral l c content →
      s.Settles l c ((Properties.ofDocument content).map Config.ofProperties)) ∧
    ∀ ds, NumberLiteral.Writes ds l → ∀ before after : List (String × String),
      (∀ e ∈ after, e.1 ≠ s.key) → Config.ofProperties (.ofList (before ++ after)) = .ok c →
      s.HoldsLiteral l c (Properties.textWith before s.key ds after) :=
  ⟨fun _ => HoldsLiteral.settles, fun _ h _ _ => holdsLiteral_textWith h⟩

def requiredEntries : List (String × String) :=
  [(Property.host, "a,b"), (Property.user, "u"), (Property.sshKey, "k")]

/-- The greatest timeout is read as it is, and the number after it is refused. -/
theorem literals_unaltered_limit :
    Config.ofProperties (.ofList (requiredEntries ++ [])) = .ok Config.twoHosts ∧
    (∃ c', (Properties.ofDocument (Properties.textWith requiredEntries Property.timeout
        (Nat.toDigits 10 18446744073709551615) [])).map Config.ofProperties = .ok (.ok c') ∧
      c'.timeout.toNat = 18446744073709551615) ∧
    ¬∃ c', (Properties.ofDocument (Properties.textWith requiredEntries Property.timeout
        (Nat.toDigits 10 18446744073709551616) [])).map Config.ofProperties = .ok (.ok c') := by
  have hc : Config.ofProperties (.ofList (requiredEntries ++ [])) = .ok Config.twoHosts := by
    have hread := Config.readHosts_joinHosts
      ⟨Config.twoHosts.hosts, Config.twoHosts.hosts_ne_nil, Config.twoHosts.isHost⟩
    calc Config.ofProperties (.ofList (requiredEntries ++ []))
      _ = Config.ofProperties
            (Config.plainProperties Config.twoHosts.hosts Config.twoHosts.credentials) := rfl
      _ = .ok Config.twoHosts := by rw [Config.ofProperties_plainProperties, hread]; rfl
  have hnumber (n : Nat) : NumberSetting.timeout.Settles { whole := Nat.toDigits 10 n }
      Config.twoHosts ((Properties.ofDocument (Properties.textWith requiredEntries Property.timeout
        (Nat.toDigits 10 n) [])).map Config.ofProperties) := by
    obtain ⟨hsettles, htext⟩ := literals_unaltered .timeout { whole := Nat.toDigits 10 n }
      Config.twoHosts
    exact hsettles _ (htext _ (NumberLiteral.writes_toDigits n) requiredEntries [] nofun hc)
  have hvalue (n : Nat) : Text.decimalValue (Nat.toDigits 10 n) = n := by
    rw [← Text.digitsValue_eq_decimalValue, Text.digitsValue_toDigits]
  refine ⟨hc, ?_, ?_⟩
  · have h := hnumber 18446744073709551615
    have hallows : NumberSetting.timeout.Allows
        { whole := Nat.toDigits 10 18446744073709551615 } := by
      refine ⟨rfl, by decide, ?_, ?_⟩
      · rw [hvalue]
        decide
      · rw [hvalue]
        decide
    obtain ⟨c', hc'⟩ := h.succeeds.2 hallows
    exact ⟨c', hc', (h.value c' hc').1.trans (hvalue 18446744073709551615)⟩
  · rw [(hnumber 18446744073709551616).succeeds]
    rintro ⟨-, -, -, hlt⟩
    rw [hvalue] at hlt
    exact absurd hlt (by decide)

end NumberSetting
end HostRotation
