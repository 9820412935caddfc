import HostRotation.Proofs.Properties.Documents
import HostRotation.Proofs.Properties.Pairs

namespace HostRotation

open Json (Value)
open Properties (TextOf Sets)

namespace ConfigFile

/-- A file that is a document of properties, with its members as they are written. -/
structure Gives (file : ConfigFile) (members : List (String × Value)) : Prop where
  document : ∃ content : String, file.content = .ok content.toUTF8 ∧ Value.Members content members
  texts : Properties.AreTexts members

/-- The fault for which a file is refused. -/
inductive HasFault (file : ConfigFile) : LayerFault → Prop where
  | unreadable {reason : String} (h : file.content = .error reason) :
    HasFault file (.unreadable file.path reason)
  | notUtf8 {bytes : ByteArray} (h : file.content = .ok bytes)
    (hn : ∀ content : String, bytes ≠ content.toUTF8) :
    HasFault file (.unreadable file.path "stream did not contain valid UTF-8")
  | notJson {content : String} (h : file.content = .ok content.toUTF8)
    (hn : Value.parse? content = none) : HasFault file (.badDocument file.path .notJson)
  | notObject {content : String} {v : Value} (h : file.content = .ok content.toUTF8)
    (hv : Value.parse? content = some v) (hn : ∀ members, v ≠ .object members) :
    HasFault file (.badDocument file.path .notObject)
  | badMember {content key : String} {members : List (String × Value)} {v : Value}
    (h : file.content = .ok content.toUTF8) (hm : Value.Members content members)
    (hv : Properties.FirstBad members key v) :
    HasFault file (.badDocument file.path (.badMember key v))

variable {file : ConfigFile} {members : List (String × Value)} {e : LayerFault}

theorem ofFile_of_content {content : String} (h : file.content = .ok content.toUTF8) :
    Properties.ofFile file = (Properties.ofDocument content).mapError (.badDocument file.path) := by
  simp only [Properties.ofFile, h, Text.fromUTF8?_eq_some_iff.2 rfl]

theorem Gives.ofFile (h : file.Gives members) :
    Properties.ofFile file = .ok (Properties.texts members) := by
  obtain ⟨content, hcontent, hmembers⟩ := h.document
  rw [ofFile_of_content hcontent, Properties.ofDocument, hmembers.parse?]
  simp only [h.texts.ofValue]
  rfl

theorem HasFault.ofFile (h : file.HasFault e) : Properties.ofFile file = .error e := by
  cases h with
  | unreadable h => simp only [Properties.ofFile, h]
  | @notUtf8 bytes h hn =>
    have hnone : String.fromUTF8? bytes = none := by
      rw [Option.eq_none_iff_forall_ne_some]
      exact fun content hc => hn content (Text.fromUTF8?_eq_some_iff.1 hc)
    simp only [Properties.ofFile, h, hnone]
  | notJson h hn =>
    simp only [ofFile_of_content h, Properties.ofDocument, hn]
    rfl
  | @notObject content v h hv hn =>
    have hvalue : Properties.ofValue v = .error .notObject := by
      cases v with
      | object members => exact absurd rfl (hn members)
      | null | bool | number | string | array => rfl
    simp only [ofFile_of_content h, Properties.ofDocument, hv, hvalue]
    rfl
  | badMember h hm hv =>
    simp only [ofFile_of_content h, Properties.ofDocument, hm.parse?, hv.ofValue]
    rfl

theorem gives_or_hasFault (file : ConfigFile) :
    (∃ members, file.Gives members) ∨ ∃ e, file.HasFault e := by
  cases hcontent : file.content with
  | error reason => exact .inr ⟨_, .unreadable hcontent⟩
  | ok bytes =>
    by_cases hutf : ∃ content : String, bytes = content.toUTF8
    · obtain ⟨content, rfl⟩ := hutf
      cases hparse : Value.parse? content with
      | none => exact .inr ⟨_, .notJson hcontent hparse⟩
      | some v =>
        by_cases hobject : ∃ sorted, v = .object sorted
        · obtain ⟨sorted, rfl⟩ := hobject
          obtain ⟨members, hmembers⟩ := Value.exists_members hparse
          rcases Properties.areTexts_or_firstBad members with htexts | ⟨key, w, hbad⟩
          · exact .inl ⟨members, ⟨content, hcontent, hmembers⟩, htexts⟩
          · exact .inr ⟨_, .badMember hcontent hmembers hbad⟩
        · exact .inr ⟨_, .notObject hcontent hparse fun sorted he => hobject ⟨sorted, he⟩⟩
    · exact .inr ⟨_, .notUtf8 hcontent fun content he => hutf ⟨content, he⟩⟩

end ConfigFile

namespace Properties

inductive Base : Option ConfigFile → List (String × Value) → Prop where
  | absent : Base none []
  | file {file : ConfigFile} {members : List (String × Value)} (h : file.Gives members) :
    Base (some file) members

/-- What layers say of a key: the last pair that sets it counts, else the last member. -/
inductive Layered (members : List (String × Value)) (pairs : List String) (key : String) :
    Option String → Prop where
  | pair {value : String} (h : LastWrite Sets pairs key value) :
    Layered members pairs key (some value)
  | member {v : Value} {text : String} (hpairs : ∀ pair ∈ pairs, ∀ value, ¬Sets pair key value)
    (h : Value.LastMember members key v) (ht : TextOf v text) :
    Layered members pairs key (some text)
  | absent (hpairs : ∀ pair ∈ pairs, ∀ value, ¬Sets pair key value)
    (h : ∀ m ∈ members, m.1 ≠ key) : Layered members pairs key none

/-- The fault for which layers are refused. -/
inductive Reported (file : Option ConfigFile) (pairs : List String) : LayerFault → Prop where
  | file {f : ConfigFile} {e : LayerFault} (hf : file = some f) (h : f.HasFault e) :
    Reported file pairs e
  | pair {before after : List String} {pair : String} (hfile : ∃ members, Base file members)
    (hpairs : pairs = before ++ pair :: after)
    (hbefore : ∀ b ∈ before, ∃ key value, Sets b key value)
    (h : ∀ key value, ¬Sets pair key value) : Reported file pairs (.badPair pair)

variable {file : Option ConfigFile} {members : List (String × Value)} {pairs : List String}
  {key : String}

theorem Base.ofLayers (h : Base file members) (pairs : List String) :
    ofLayers file pairs = pairs.foldlM override (texts members) := by
  cases h with
  | absent =>
    rw [texts_nil]
    rfl
  | file h =>
    rw [Properties.ofLayers, h.ofFile]
    rfl

theorem Base.ofLayers_of_sets (h : Base file members)
    (hpairs : ∀ pair ∈ pairs, ∃ key value, Sets pair key value) :
    Properties.ofLayers file pairs = .ok ((texts members).insertMany (entries pairs)) := by
  rw [h.ofLayers, foldlM_override_of_sets _ hpairs]

theorem Base.texts (h : Base file members) : AreTexts members := by
  cases h with
  | absent =>
    rintro key v ⟨before, m, after, he, -⟩
    simp at he
  | file h => exact h.texts

theorem layered_iff {o : Option String} (h : AreTexts members) :
    Layered members pairs key o ↔ ((texts members).insertMany (entries pairs))[key]? = o := by
  rw [Table.getElem?_insertMany, getElem?_texts]
  constructor
  · rintro (hp | ⟨hpairs, hm, ht⟩ | ⟨hpairs, hm⟩)
    · rw [lookup_entries_eq_some_iff.2 hp, Option.some_or]
    · rw [lookup_entries_eq_none_iff.2 hpairs, Value.lookup_eq_some_iff.2 hm, Option.none_or,
        Option.bind_some, ht.valueText?]
    · have hnone : members.reverse.lookup key = none := by
        rw [List.lookup_eq_none_iff]
        exact fun m hmem => bne_iff_ne.2 (hm m (List.mem_reverse.1 hmem)).symm
      rw [lookup_entries_eq_none_iff.2 hpairs, hnone, Option.none_or, Option.bind_none]
  · rintro rfl
    cases hp : (entries pairs).reverse.lookup key with
    | some value => exact .pair (lookup_entries_eq_some_iff.1 hp)
    | none =>
      have hpairs := lookup_entries_eq_none_iff.1 hp
      cases hm : members.reverse.lookup key with
      | some v =>
        have hlast := Value.lookup_eq_some_iff.1 hm
        obtain ⟨text, ht⟩ := h key v hlast
        rw [Option.none_or, Option.bind_some, ht.valueText?]
        exact .member hpairs hlast ht
      | none =>
        refine .absent hpairs fun m hmem => ?_
        exact (bne_iff_ne.1 (List.lookup_eq_none_iff.1 hm m (List.mem_reverse.2 hmem))).symm

theorem Reported.ofLayers {e : LayerFault} (h : Reported file pairs e) :
    Properties.ofLayers file pairs = .error e := by
  cases h with
  | file hf h =>
    rw [hf, Properties.ofLayers, h.ofFile]
    rfl
  | @pair before after bad hfile hpairs hbefore h =>
    obtain ⟨members, hbase⟩ := hfile
    have hread : pairs.mapM ofPair = .error (.badPair bad) := by
      rw [hpairs]
      refine mapM_of_first_error (fun b hb => ?_) (ofPair_eq_error h)
      obtain ⟨key, value, hs⟩ := hbefore b hb
      exact ⟨(key, value), hs.ofPair⟩
    rw [hbase.ofLayers, foldlM_override, hread]
    rfl

theorem based_or_reported (file : Option ConfigFile) (pairs : List String) :
    (∃ members, Base file members) ∧ (∀ pair ∈ pairs, ∃ key value, Sets pair key value) ∨
      ∃ e, Reported file pairs e := by
  have hbase : (∃ members, Base file members) ∨ ∃ f e, file = some f ∧ f.HasFault e := by
    cases file with
    | none => exact .inl ⟨[], .absent⟩
    | some f =>
      rcases f.gives_or_hasFault with ⟨members, hm⟩ | ⟨e, he⟩
      · exact .inl ⟨members, .file hm⟩
      · exact .inr ⟨f, e, rfl, he⟩
  rcases hbase with hbase | ⟨f, e, hf, he⟩
  · rcases forall_ok_or_first_error ofPair pairs with
      hall | ⟨before, pair, after, e, hsplit, hbefore, he⟩
    · refine .inl ⟨hbase, fun pair hp => ?_⟩
      obtain ⟨⟨key, value⟩, hok⟩ := hall pair hp
      exact ⟨key, value, ofPair_eq_ok_iff.1 hok⟩
    · refine .inr ⟨.badPair pair, .pair hbase hsplit (fun b hb => ?_) fun key value hs => ?_⟩
      · obtain ⟨⟨key, value⟩, hok⟩ := hbefore b hb
        exact ⟨key, value, ofPair_eq_ok_iff.1 hok⟩
      · rw [hs.ofPair] at he
        cases he
  · exact .inr ⟨e, .file hf he⟩

/-- Layers are put together as their texts say, and refused for their first fault. -/
theorem ofLayers_layered (file : Option ConfigFile) (pairs : List String) :
    ((∃ p, ofLayers file pairs = .ok p) ↔
      (∃ members, Base file members) ∧ ∀ pair ∈ pairs, ∃ key value, Sets pair key value) ∧
    (∀ p, ofLayers file pairs = .ok p ↔
      ∃ members, Base file members ∧ (∀ pair ∈ pairs, ∃ key value, Sets pair key value) ∧
        ∀ key, Layered members pairs key p[key]?) ∧
    ∀ e, ofLayers file pairs = .error e ↔ Reported file pairs e := by
  have hok : ∀ p, ofLayers file pairs = .ok p → (∃ members, Base file members) ∧
      ∀ pair ∈ pairs, ∃ key value, Sets pair key value := by
    intro p hp
    rcases based_or_reported file pairs with h | ⟨e, he⟩
    · exact h
    · cases hp.symm.trans he.ofLayers
  refine ⟨⟨fun ⟨p, hp⟩ => hok p hp, ?_⟩, fun p => ⟨fun hp => ?_, ?_⟩, fun e => ⟨fun he => ?_, ?_⟩⟩
  · rintro ⟨⟨members, hbase⟩, hpairs⟩
    exact ⟨_, hbase.ofLayers_of_sets hpairs⟩
  · obtain ⟨⟨members, hbase⟩, hpairs⟩ := hok p hp
    obtain rfl := Except.ok.inj ((hbase.ofLayers_of_sets hpairs).symm.trans hp)
    exact ⟨members, hbase, hpairs, fun key => (layered_iff hbase.texts).2 rfl⟩
  · rintro ⟨members, hbase, hpairs, hkeys⟩
    have hp : (texts members).insertMany (entries pairs) = p := by
      apply Std.ExtTreeMap.ext_getElem?
      exact fun key => (layered_iff hbase.texts).1 (hkeys key)
    rw [hbase.ofLayers_of_sets hpairs, hp]
  · rcases based_or_reported file pairs with ⟨⟨members, hbase⟩, hpairs⟩ | ⟨e', he'⟩
    · cases he.symm.trans (hbase.ofLayers_of_sets hpairs)
    · obtain rfl := Except.error.inj (he.symm.trans he'.ofLayers)
      exact he'
  · exact Reported.ofLayers

end Properties
end HostRotation
