import HostRotation.CheckMethod.Json
import HostRotation.Command.Run
import HostRotation.Proofs.CheckMethod.Names
import HostRotation.Proofs.Json.RoundTrip

namespace HostRotation

open Json (Item Tree Value)

namespace Json.Value

theorem exists_tree_string {text s : String} (h : parse? text = some (.string s)) :
    ∃ items, Tree.parse? text = some (.string items) ∧ Item.text? items = some s := by
  obtain ⟨tree, htree, hvalue⟩ := Option.bind_eq_some_iff.1 h
  cases tree with
  | string items =>
    rw [maxDepth, ofTree?] at hvalue
    obtain ⟨_, hitems, he⟩ := Option.map_eq_some_iff.1 hvalue
    cases he
    exact ⟨items, htree, hitems⟩
  | null | bool => cases hvalue
  | number | array | object =>
    rw [maxDepth, ofTree?] at hvalue
    obtain ⟨_, _, he⟩ := Option.map_eq_some_iff.1 hvalue
    cases he

end Json.Value

namespace CheckMethod

variable {s text : String} {m : CheckMethod}

theorem readMethod_eq_ok_iff : Command.readMethod s = .ok m ↔ Named s m := by
  rw [Command.readMethod, ← ofName?_eq_some_iff]
  cases ofName? s <;> simp

theorem readMethod_eq_error_iff {failure : Failure} :
    Command.readMethod s = .error failure ↔
      (∀ m, ¬Named s m) ∧ failure = .text (Command.unknownMethod s) := by
  rw [Command.readMethod, ← ofName?_eq_none_iff]
  cases ofName? s <;> simp [eq_comm]

theorem jsonName_eq_name (m : CheckMethod) : m.jsonName = m.name := by
  cases m <;> rfl

theorem ofExactName?_eq_some_iff : ofExactName? s = some m ↔ s = m.name := by
  constructor
  · intro h
    have hs : m.jsonName = s := by simpa [ofExactName?] using List.find?_some h
    rw [← hs, jsonName_eq_name]
  · intro h
    subst h
    cases m <;> decide

theorem ofJson?_eq_some_iff (h : Value.parse? text = some (.string s)) :
    ofJson? text = some m ↔ s = m.name := by
  obtain ⟨items, htree, hitems⟩ := Value.exists_tree_string h
  rw [ofJson?, htree, Option.bind_some, ofTree?, hitems, Option.bind_some,
    ofExactName?_eq_some_iff]

theorem compact_toJson (m : CheckMethod) : m.toJson.compact = "\"" ++ m.name ++ "\"" := by
  cases m <;> decide

theorem parse?_compact_toJson (m : CheckMethod) :
    Value.parse? m.toJson.compact = some (.string m.name) := by
  have h := Value.parse?_compact (.string m.jsonName)
  rw [toJson, h, jsonName_eq_name]
  rfl

/-- The readers of a method name agree on every text. Where the name is an argument or a setting,
blanks around it and the case of its letters do not matter, at most one method is meant, and in
whatever order the methods are tried, that one is found; a setting that names none means no check.
A JSON string must be the name itself, which is also what is shown and written of a method, so that
each reader reads it back. -/
theorem names_agree (s : String) :
    (∀ m, Command.readMethod s = .ok m ↔ Text.sameName m.name (Text.trim s)) ∧
    (∀ failure, Command.readMethod s = .error failure ↔
      (∀ m : CheckMethod, ¬Text.sameName m.name (Text.trim s)) ∧
        failure = .text (Command.unknownMethod s)) ∧
    (∀ m m' : CheckMethod, Text.sameName m.name (Text.trim s) →
      Text.sameName m'.name (Text.trim s) → m = m') ∧
    (∀ order : List CheckMethod, (∀ m, m ∈ order) →
      (order.find? fun m => Text.sameName m.name (Text.trim s)) = ofName? s) ∧
    (∀ m, Command.readMethod s = .ok m → ofName s = m) ∧
    (ofName s = .unchecked ↔ (∃ failure, Command.readMethod s = .error failure) ∨
      Text.sameName CheckMethod.unchecked.name (Text.trim s)) ∧
    (∀ text, Value.parse? text = some (.string s) → ∀ m, ofJson? text = some m ↔ s = m.name) ∧
    ∀ m : CheckMethod, m.toJson = .string m.name ∧ m.toJson.compact = "\"" ++ m.name ++ "\"" ∧
      Value.parse? m.toJson.compact = some (.string m.name) ∧
      Command.readMethod m.name = .ok m ∧ ofName m.name = m ∧
      ofJson? m.toJson.compact = some m := by
  refine ⟨fun m => readMethod_eq_ok_iff, fun failure => readMethod_eq_error_iff,
    fun m m' => Named.unique, fun order h => find?_sameName h s,
    fun m h => ofName_eq_of_named (readMethod_eq_ok_iff.1 h), ?_,
    fun text h m => ofJson?_eq_some_iff h, fun m => ?_⟩
  · rw [ofName_eq_unchecked_iff]
    simp [readMethod_eq_error_iff, Named]
  · have hread := parse?_compact_toJson m
    exact ⟨congrArg Value.string (jsonName_eq_name m), compact_toJson m, hread,
      readMethod_eq_ok_iff.2 (named_name m), ofName_name m, (ofJson?_eq_some_iff hread).2 rfl⟩

/-- In capitals and with blanks around it, a name is read as an argument and as a setting, but not
as JSON. -/
theorem names_agree_capitals :
    Command.readMethod " ROUNDROBINPING\n" = .ok .ping ∧ ofName " ROUNDROBINPING\n" = .ping ∧
    ([CheckMethod.ping, .unchecked, .ping, .socket].find? fun m =>
      Text.sameName m.name (Text.trim " ROUNDROBINPING\n")) = some .ping ∧
    Value.parse? "\" ROUNDROBINPING\\n\"" = some (.string " ROUNDROBINPING\n") ∧
    ∀ m, ofJson? "\" ROUNDROBINPING\\n\"" ≠ some m := by
  obtain ⟨hargument, -, hunique, horder, hsetting, -, hjson, -⟩ := names_agree " ROUNDROBINPING\n"
  have hping : Text.sameName CheckMethod.ping.name (Text.trim " ROUNDROBINPING\n") := by decide
  have hread := (hargument .ping).2 hping
  have hall : ∀ m, m ∈ [CheckMethod.ping, .unchecked, .ping, .socket] := by
    intro m
    cases m <;> decide
  have htext : Value.parse? "\" ROUNDROBINPING\\n\"" = some (.string " ROUNDROBINPING\n") := by
    have hcompact : (Value.string " ROUNDROBINPING\n").compact = "\" ROUNDROBINPING\\n\"" := by
      decide
    rw [← hcompact, Value.parse?_compact (.string _)]
    rfl
  refine ⟨hread, hsetting _ hread, ?_, htext, ?_⟩
  · rw [horder _ hall, ofName?_eq_some_iff]
    exact hping
  · intro m hm
    have hname := (hjson _ htext m).1 hm
    revert hname
    cases m <;> decide

end CheckMethod
end HostRotation
