import HostRotation.Proofs.Config.Language
import HostRotation.Proofs.Config.RoundTrip
import HostRotation.Proofs.Json.RoundTrip
import HostRotation.Proofs.Properties.Documents
import HostRotation.Proofs.Properties.Pairs
import HostRotation.Proofs.Selection.Positions

namespace HostRotation

/-- A key that a pair may hold: not empty, no blank at either end, no equals sign. -/
structure IsKey (key : String) : Prop where
  ne_empty : key ≠ ""
  trimmed : Text.trim key = key
  no_equals : '=' ∉ key.toList

namespace Properties

def pair (entry : String × String) : String :=
  entry.1 ++ "=" ++ entry.2

theorem sets_pair {entry : String × String} (h : IsKey entry.1) :
    Sets (pair entry) entry.1 entry.2 :=
  ⟨entry.1, rfl, h.no_equals, h.trimmed.symm ▸ h.ne_empty, h.trimmed⟩

theorem foldlM_override_pairs (p : Properties) {entries : List (String × String)}
    (h : ∀ e ∈ entries, IsKey e.1) :
    (entries.map pair).foldlM override p = .ok (p.insertMany entries) := by
  have hread : (entries.map pair).mapM ofPair = .ok entries := by
    rw [List.mapM_map, mapM_of_forall_ok (g := some), List.filterMap_some]
    exact fun e he => ⟨e, (sets_pair (h e he)).ofPair, rfl⟩
  rw [foldlM_override, hread]
  rfl

variable {m : Properties} {entries : List (String × String)}

theorem ofLayers_pairs (hkeys : ∀ key ∈ m, IsKey key) (h : entries.Perm m.toList) :
    ofLayers none (entries.map pair) = .ok m := by
  have hentries : ∀ e ∈ entries, IsKey e.1 := by
    intro e he
    apply hkeys
    rw [← Std.ExtTreeMap.mem_keys, ← Std.ExtTreeMap.map_fst_toList_eq_keys]
    exact List.mem_map_of_mem (h.mem_iff.1 he)
  calc ofLayers none (entries.map pair)
    _ = (entries.map pair).foldlM override ∅ := rfl
    _ = .ok ((∅ : Properties).insertMany entries) := foldlM_override_pairs ∅ hentries
    _ = .ok m := by rw [← Std.ExtTreeMap.ofList_eq_insertMany_empty, Table.ofList_eq_of_perm h]

open Json (Value)

def document (entries : List (String × String)) : Value :=
  .object (entries.map fun e => (e.1, .string e.2))

theorem legible_document (entries : List (String × String)) :
    (document entries).Legible Value.maxDepth := by
  apply Value.Legible.object
  intro member hmember
  obtain ⟨e, -, rfl⟩ := List.mem_map.1 hmember
  exact .string e.2

theorem sortedMembers_stringMembers (entries : List (String × String)) :
    Value.sortedMembers (stringMembers entries) = stringMembers entries := by
  induction entries with
  | nil => rfl
  | cons e entries ih =>
    rw [stringMembers] at ih
    simp only [stringMembers, List.map_cons, Value.sortedMembers, Value.sorted, ih]

theorem ofValue_sorted_document (h : entries.Perm m.toList) :
    ofValue (document entries).sorted = .ok m := by
  calc ofValue (document entries).sorted
    _ = ofValue (.object (Value.sortMembers (Value.sortedMembers (stringMembers entries)))) := rfl
    _ = .ok (.ofList entries) := by rw [sortedMembers_stringMembers, ofValue_stringMembers]
    _ = .ok m := by rw [Table.ofList_eq_of_perm h]

/-- The two texts in which a document with the given entries is written. -/
def IsDocumentOf (text : String) (entries : List (String × String)) : Prop :=
  text = (document entries).compact ∨ text = (document entries).pretty

theorem IsDocumentOf.ofDocument {text : String} (ht : IsDocumentOf text entries)
    (h : entries.Perm m.toList) : ofDocument text = .ok m := by
  have hparse : Value.parse? text = some (document entries).sorted := by
    rcases ht with rfl | rfl
    · exact Value.parse?_compact (legible_document entries)
    · exact Value.parse?_pretty (legible_document entries)
  simp only [Properties.ofDocument, hparse, ofValue_sorted_document h]

/-- What the program is given when the given entries are handed to it: pairs, or a document in a
file. -/
inductive Delivers (entries : List (String × String)) : Option ConfigFile → List String → Prop where
  | pairs : Delivers entries none (entries.map pair)
  | file (path : String) {text : String} (ht : IsDocumentOf text entries) :
    Delivers entries (some { path, content := .ok text.toUTF8 }) []

theorem Delivers.ofLayers {file : Option ConfigFile} {pairs : List String}
    (hd : Delivers entries file pairs) (hkeys : ∀ key ∈ m, IsKey key)
    (h : entries.Perm m.toList) : ofLayers file pairs = .ok m := by
  cases hd with
  | pairs => exact ofLayers_pairs hkeys h
  | @file path text ht =>
    have hfile : ofFile { path, content := .ok text.toUTF8 } = .ok m := by
      simp only [ofFile, Text.fromUTF8?_eq_some_iff.2 rfl, ht.ofDocument h]
      rfl
    rw [Properties.ofLayers, hfile]
    rfl

end Properties

theorem isKey_of_mem_all {key : String} (h : key ∈ Property.all) : IsKey key := by
  have hall : ∀ key ∈ Property.all, key ≠ "" ∧ Text.trim key = key ∧ '=' ∉ key.toList := by
    decide +kernel
  obtain ⟨hne, htrim, heq⟩ := hall key h
  exact ⟨hne, htrim, heq⟩

namespace Config

theorem mem_insertSome {p : Properties} {key k : String} {value : Option String}
    (h : k ∈ insertSome p key value) : k = key ∨ k ∈ p := by
  cases value with
  | none => exact .inr h
  | some v =>
    rw [insertSome, Std.ExtTreeMap.mem_insert, Std.LawfulEqCmp.compare_eq_iff_eq] at h
    exact h.imp_left Eq.symm

theorem mem_all_of_mem_toProperties {c : Config} {key : String} (h : key ∈ c.toProperties) :
    key ∈ Property.all := by
  have hset : key ∈ [Property.host, Property.user, Property.sshKey, Property.method,
      Property.timeout, Property.port] ∨ key ∈ [Property.initializationAction,
      Property.kerberosPrincipal, Property.kerberosKeytabPath] := by
    rw [toProperties] at h
    rcases mem_insertSome h with rfl | h
    · simp
    rcases mem_insertSome h with rfl | h
    · simp
    rcases mem_insertSome h with rfl | h
    · simp
    exact .inl (by simpa using h)
  simp only [Property.all, List.mem_cons] at hset ⊢
  grind

end Config

namespace Properties

/-- A property map whose keys may stand in pairs arrives as it is by all routes, with its entries in
any order, and so does every configuration. -/
theorem arrives :
    (∀ m : Properties, (∀ key ∈ m, IsKey key) → ∀ entries, entries.Perm m.toList →
      (∀ text, IsDocumentOf text entries → ofDocument text = .ok m) ∧
      ∀ file pairs, Delivers entries file pairs → ofLayers file pairs = .ok m ∧
        (ofLayers file pairs).map Config.ofProperties = .ok (Config.ofProperties m)) ∧
    ∀ (c : Config) entries, entries.Perm c.toProperties.toList →
      ∀ file pairs, Delivers entries file pairs →
        (ofLayers file pairs).map Config.ofProperties = .ok (.ok c) := by
  refine ⟨fun m hkeys entries h => ⟨fun text ht => ht.ofDocument h, fun file pairs hd => ?_⟩,
    fun c entries h file pairs hd => ?_⟩
  · have hlayers := hd.ofLayers hkeys h
    exact ⟨hlayers, by rw [hlayers]; rfl⟩
  · rw [hd.ofLayers (fun key hk => isKey_of_mem_all (Config.mem_all_of_mem_toProperties hk)) h]
    exact congrArg Except.ok c.describes_toProperties.ofProperties

def awkward : List (String × String) :=
  [("user", " a=b\n\"c\" \x01"), ("sshKey", "="), ("host", "")]

theorem arrives_awkward :
    (∀ key ∈ (Std.ExtTreeMap.ofList awkward compare : Properties), IsKey key) ∧
      awkward.Perm (Std.ExtTreeMap.ofList awkward compare : Properties).toList ∧
      ofLayers none (awkward.map pair) = .ok (Std.ExtTreeMap.ofList awkward compare) ∧
      ofDocument (document awkward).pretty = .ok (Std.ExtTreeMap.ofList awkward compare) ∧
      (ofLayers (some {
        path := "hosts.json"
        content := .ok Config.twoHosts.toProperties.toDocument.compact.toUTF8 }) []).map
          Config.ofProperties = .ok (.ok Config.twoHosts) := by
  have hperm : awkward.Perm (Std.ExtTreeMap.ofList awkward compare : Properties).toList := by
    decide +kernel
  have hkeys : ∀ key ∈ (Std.ExtTreeMap.ofList awkward compare : Properties), IsKey key := by
    intro key hkey
    have hnames : key ∈ awkward.map Prod.fst := by simpa [awkward] using hkey
    have hsub : awkward.map Prod.fst ⊆ Property.all := by decide
    exact isKey_of_mem_all (hsub hnames)
  obtain ⟨hdocument, hlayers⟩ := arrives.1 _ hkeys awkward hperm
  have hfile := arrives.2 Config.twoHosts _ (.refl _) _ _ (.file "hosts.json" (.inl rfl))
  exact ⟨hkeys, hperm, (hlayers _ _ .pairs).1, hdocument _ (.inr rfl), hfile⟩

end Properties
end HostRotation
