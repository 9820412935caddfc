import HostRotation.Command.Output
import HostRotation.Proofs.Json.Numbers
import HostRotation.Proofs.Properties.Delivery

namespace HostRotation

open Json (Item Number Tree Value)

namespace Json

theorem Value.legible_ofUInt64 {depth : Nat} (n : UInt64) : Value.Legible depth (.ofUInt64 n) :=
  .number {
    literal := by
      rw [Number.literal_natCast]
      exact NumberLiteral.legible_toDigits n.toNat
    value := by
      rw [Number.literal_natCast]
      exact Number.ofLiteral?_toDigits n.toNat_lt }

namespace Tree

@[simp] theorem uint64?_toTree (n : UInt64) : (Value.ofUInt64 n).toTree.uint64? = some n := by
  rw [Value.ofUInt64, Value.toTree, uint64?, Number.unsigned?_literal]

@[simp] theorem text?_toTree (s : String) : (Value.string s).toTree.text? = some s :=
  Item.text?_ofText s

theorem members?_toTree (members : List (String × Value)) :
    (Value.object members).toTree.members? = some (members.map fun m => (m.1, m.2.toTree)) := by
  rw [Value.toTree, members?]
  induction members with
  | nil => rfl
  | cons m members ih =>
    rw [Value.memberTrees, List.mapM_cons, ih]
    simp only [Item.text?_ofText]
    rfl

theorem fields?_toTree (names : List String) (members : List (String × Value)) :
    (Value.object members).toTree.fields? names =
      names.mapM (member? (members.map fun m => (m.1, m.2.toTree))) := by
  exact congrArg (Option.bind · fun members => names.mapM (member? members))
    (members?_toTree members)

/-- The value at the end of a path of keys. -/
def at? : List String → Tree → Option Tree
  | [], t => some t
  | key :: path, t => ((t.members?).bind (member? · key)).bind (at? path)

def count? (t : Tree) (path : List String) : Option UInt64 :=
  (t.at? path).bind uint64?

theorem at?_toTree (members : List (String × Value)) (key : String) (path : List String) :
    (Value.object members).toTree.at? (key :: path) =
      (member? (members.map fun m => (m.1, m.2.toTree)) key).bind (at? path) := by
  rw [at?, members?_toTree, Option.bind_some]

theorem member?_toList {α : Type} (table : Table α) (f : α → Tree) (key : String) :
    member? (table.toList.map fun e => (e.1, f e.2)) key = table[key]?.map f := by
  rw [member?, List.filter_map]
  cases hkey : table[key]? with
  | none =>
    have hnone : ∀ e ∈ table.toList, ¬e.1 = key := by
      rintro ⟨k, a⟩ he rfl
      rw [Std.ExtTreeMap.mem_toList_iff_getElem?_eq_some, hkey] at he
      cases he
    rw [List.filter_eq_nil_iff.2 (by simpa using hnone)]
    rfl
  | some a =>
    obtain ⟨before, after, hsplit⟩ := List.append_of_mem
      (Std.ExtTreeMap.mem_toList_iff_getElem?_eq_some.2 hkey)
    have hdistinct := table.distinct_keys_toList
    rw [hsplit, List.pairwise_append, List.pairwise_cons] at hdistinct
    have hbefore : ∀ e ∈ before, ¬e.1 = key := by
      rintro e he rfl
      exact hdistinct.2.2 e he _ List.mem_cons_self Std.ReflCmp.compare_self
    have hafter : ∀ e ∈ after, ¬e.1 = key := by
      rintro e he rfl
      exact hdistinct.2.1.1 e he Std.ReflCmp.compare_self
    rw [hsplit, List.filter_append, List.filter_cons_of_pos (by simp),
      List.filter_eq_nil_iff.2 (by simpa using hbefore),
      List.filter_eq_nil_iff.2 (by simpa using hafter)]
    rfl

end Tree
end Json

namespace HostMetrics

variable (m : HostMetrics)

theorem legible_toJson {depth : Nat} : m.toJson.Legible (depth + 1) := by
  apply Value.Legible.object
  intro member hmember
  simp only [fieldNames, List.zip_cons_cons, List.zip_nil_right, List.mem_cons,
    List.not_mem_nil, or_false] at hmember
  rcases hmember with rfl | rfl | rfl | rfl | rfl
  · exact .string m.host
  all_goals exact Value.legible_ofUInt64 _

theorem ofTree?_toJson : ofTree? m.toJson.toTree = some m := by
  rw [ofTree?, toJson, Tree.fields?_toTree]
  simp [fieldNames, Tree.member?]

theorem count?_selected : m.toJson.toTree.count? ["selected_count"] = some m.selected := by
  rw [toJson, Tree.count?, Tree.at?_toTree]
  simp [fieldNames, Tree.member?, Tree.at?]

end HostMetrics

namespace Snapshot

variable {s : Snapshot} {entries : List (String × HostMetrics)}

def document (s : Snapshot) (entries : List (String × HostMetrics)) : Value :=
  .object (fieldNames.zip
    [.ofUInt64 s.selections, .ofUInt64 s.failed, .ofUInt64 s.probes, .ofUInt64 s.uptime,
      .object (entries.map fun e => (e.1, e.2.toJson))])

theorem legible_document (s : Snapshot) (entries : List (String × HostMetrics)) :
    (document s entries).Legible 3 := by
  apply Value.Legible.object
  intro member hmember
  simp only [fieldNames, List.zip_cons_cons, List.zip_nil_right, List.mem_cons,
    List.not_mem_nil, or_false] at hmember
  rcases hmember with rfl | rfl | rfl | rfl | rfl
  case inr.inr.inr.inr =>
    apply Value.Legible.object
    intro member hmember
    obtain ⟨e, -, rfl⟩ := List.mem_map.1 hmember
    exact e.2.legible_toJson
  all_goals exact Value.legible_ofUInt64 _

theorem hostsOfTree?_toTree (entries : List (String × HostMetrics)) :
    hostsOfTree? (Value.object (entries.map fun e => (e.1, e.2.toJson))).toTree =
      some (Std.ExtTreeMap.ofList entries compare) := by
  have hentries : (entries.map fun e => (e.1, e.2.toJson.toTree)).mapM
      (fun e => (HostMetrics.ofTree? e.2).map (e.1, ·)) = some entries := by
    induction entries with
    | nil => rfl
    | cons e entries ih =>
      rw [List.map_cons, List.mapM_cons, ih]
      simp only [HostMetrics.ofTree?_toJson]
      rfl
  rw [hostsOfTree?, Tree.members?_toTree, List.map_map, Option.bind_eq_bind, Option.bind_some]
  exact congrArg (Option.bind · fun hosts => some (Std.ExtTreeMap.ofList hosts compare)) hentries

theorem ofTree?_document (h : entries.Perm s.hosts.toList) :
    ofTree? (document s entries).toTree = some s := by
  rw [ofTree?, document, Tree.fields?_toTree]
  simp [fieldNames, Tree.member?, hostsOfTree?_toTree, Table.ofList_eq_of_perm h]

/-- The texts in which a snapshot is written with its hosts in some order: with nothing between its
tokens, or with a line for each member, and the last line ended or not. -/
inductive IsTextOf (s : Snapshot) (entries : List (String × HostMetrics)) : String → Prop where
  | compact : IsTextOf s entries (document s entries).compact
  | pretty : IsTextOf s entries (document s entries).pretty
  | line : IsTextOf s entries (Command.Output.line (document s entries).pretty)

theorem IsTextOf.parse? {text : String} (ht : IsTextOf s entries text) :
    Tree.parse? text = some (document s entries).toTree := by
  have hlegible := legible_document s entries
  cases ht with
  | compact => exact Value.tree_parse?_of_spells (Value.spells_compact hlegible)
  | pretty => exact Value.tree_parse?_of_spells (Value.spells_pretty hlegible 0)
  | line =>
    have hspace : Value.IsSpace ['\n'] := by
      intro c hc
      rw [List.mem_singleton.1 hc]
      rfl
    have hread := Value.tree_parse?_of_spells_append (Value.spells_pretty hlegible 0) hspace
    rwa [String.ofList_append] at hread

theorem IsTextOf.ofJson? {text : String} (ht : IsTextOf s entries text)
    (h : entries.Perm s.hosts.toList) : ofJson? text = some s := by
  rw [Snapshot.ofJson?, ht.parse?, Option.bind_some, ofTree?_document h]

/-- A snapshot is read back from every text in which it is written, in any order of its hosts, and
so from what the command prints. -/
theorem written_and_read_back (s : Snapshot) :
    (∀ entries, entries.Perm s.hosts.toList → ∀ text, IsTextOf s entries text →
      ofJson? text = some s) ∧
    ofJson? s.toJson.compact = some s ∧
    ofJson? s.toJson.pretty = some s ∧
    ofJson? (Command.Output.snapshotText s) = some s := by
  have hread : ∀ entries, entries.Perm s.hosts.toList → ∀ text, IsTextOf s entries text →
      ofJson? text = some s := fun _ h _ ht => ht.ofJson? h
  have hown := hread s.hosts.toList (.refl _)
  exact ⟨hread, hown _ .compact, hown _ .pretty, hown _ .line⟩

/-- Hosts whose names need escapes or are empty, one of them under another key than its name, with
the largest counts. -/
def awkwardEntries : List (String × HostMetrics) :=
  [("\"\\\x00\n\x7f😀", { host := "edge\t", selected := 18446744073709551615, failures := 1 }),
    ("", { host := "", successes := 10, meanLatency := 18446744073709551615 })]

def awkward : Snapshot where
  selections := 18446744073709551615
  probes := 10
  uptime := 1000
  hosts := .ofList awkwardEntries compare

theorem written_and_read_back_awkward :
    awkwardEntries.Perm awkward.hosts.toList ∧
      IsTextOf awkward awkwardEntries (document awkward awkwardEntries).pretty ∧
      ofJson? (document awkward awkwardEntries).pretty = some awkward ∧
      ofJson? (document awkward awkwardEntries).compact = some awkward := by
  have hperm : awkwardEntries.Perm awkward.hosts.toList := by decide +kernel
  have hread := (written_and_read_back awkward).1 awkwardEntries hperm
  exact ⟨hperm, .pretty, hread _ .pretty, hread _ .compact⟩

/-- A text that is read back as a snapshot and holds its counts under their names. -/
structure IsPrintedAs (s : Snapshot) (text : String) : Prop where
  read : ofJson? text = some s
  counts : ∃ t, Tree.parse? text = some t ∧
    t.count? ["total_selections"] = some s.selections ∧
    t.count? ["failed_selections"] = some s.failed ∧
    ∀ host, t.count? ["hosts", host, "selected_count"] =
      s.hosts[host]?.map HostMetrics.selected

theorem at?_document_hosts (s : Snapshot) (entries : List (String × HostMetrics))
    (path : List String) :
    (document s entries).toTree.at? ("hosts" :: path) =
      (Value.object (entries.map fun e => (e.1, e.2.toJson))).toTree.at? path := by
  rw [document, Tree.at?_toTree]
  simp [fieldNames, Tree.member?]

theorem count?_hosts (s : Snapshot) (host : String) :
    (document s s.hosts.toList).toTree.count? ["hosts", host, "selected_count"] =
      s.hosts[host]?.map HostMetrics.selected := by
  have hmember : Tree.member? (s.hosts.toList.map fun e => (e.1, e.2.toJson.toTree)) host =
      s.hosts[host]?.map fun m => m.toJson.toTree :=
    Tree.member?_toList s.hosts (fun m => m.toJson.toTree) host
  rw [Tree.count?, at?_document_hosts, Tree.at?_toTree, List.map_map]
  simp only [Function.comp_def, hmember]
  cases s.hosts[host]? with
  | none => rfl
  | some m => exact m.count?_selected

theorem isPrintedAs_snapshotText (s : Snapshot) :
    s.IsPrintedAs (Command.Output.snapshotText s) := by
  have ht : IsTextOf s s.hosts.toList (Command.Output.snapshotText s) := .line
  refine ⟨ht.ofJson? (.refl _), _, ht.parse?, ?_, ?_, count?_hosts s⟩
  · rw [Tree.count?, document, Tree.at?_toTree]
    simp [fieldNames, Tree.member?, Tree.at?]
  · rw [Tree.count?, document, Tree.at?_toTree]
    simp [fieldNames, Tree.member?, Tree.at?]

end Snapshot
end HostRotation
