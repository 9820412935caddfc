import HostRotation.Proofs.Command.Outcome
import HostRotation.Proofs.Command.Secrecy
import HostRotation.Proofs.Text.Pieces

namespace HostRotation.Command

variable {σ : Type} {outside : Outside (StateM σ)} {args : List String} {a : SelectArgs}
  {p : Properties} {c : Config} {w w₁ w' : σ} {o : Output} {rounds : List Round}
  {selected : List Selected} {failure : Option NoLiveHost} {snapshot : Snapshot}

namespace Performs

theorem host_mem (h : Performs outside a c w o w' rounds selected failure snapshot) :
    ∀ x ∈ selected, x.host ∈ c.hosts := by
  intro x hx
  have hresult : Except.ok x ∈ rounds.map Round.result := by
    rw [h.ended]
    exact List.mem_append_left _ (List.mem_map_of_mem hx)
  obtain ⟨round, hround, hok⟩ := List.mem_map.1 hresult
  obtain ⟨i, hi⟩ := List.mem_iff_getElem?.1 hround
  obtain ⟨cursor, -, hselects⟩ := h.walks i round hi
  obtain ⟨-, hhost, -⟩ := hselects.selected x hok
  exact List.mem_of_getElem? hhost

theorem pieces_stdout (h : Performs outside a c w o w' rounds selected failure snapshot)
    (hm : a.metrics = false) :
    Text.pieces '\n' o.stdout =
      (selected.map Selected.host).flatMap (Text.pieces '\n') ++ [""] := by
  have hstdout := h.stdout
  rw [hm, if_neg Bool.false_ne_true, String.append_empty] at hstdout
  rw [hstdout, ← Text.pieces_join_lines, List.map_map]
  rfl

end Performs

theorem Builds.run_performs (h : Builds outside args w a p w₁)
    (hc : Config.ofProperties p = .ok c) :
    ∃ o w' rounds selected failure snapshot, (run outside args).run w = pure (o, w') ∧
      Performs outside a c w₁ o w' rounds selected failure snapshot := by
  rw [h.run_of_ok hc]
  exact selectHosts_performs outside a c w₁

/-- What a run of `select` writes without counts is divided into the lines of the hosts that it
selects, one host after the other. These are the hosts themselves exactly when none of them holds a
line end. -/
theorem run_lines (h : Builds outside args w a p w₁) (hc : Config.ofProperties p = .ok c)
    (hm : a.metrics = false) :
    ∃ o w' rounds selected failure snapshot, (run outside args).run w = pure (o, w') ∧
      Performs outside a c w₁ o w' rounds selected failure snapshot ∧
      (∀ x ∈ selected, x.host ∈ c.hosts) ∧
      Text.pieces '\n' o.stdout =
        (selected.map Selected.host).flatMap (Text.pieces '\n') ++ [""] ∧
      (Text.pieces '\n' o.stdout = selected.map Selected.host ++ [""] ↔
        ∀ x ∈ selected, '\n' ∉ x.host.toList) := by
  obtain ⟨o, w', rounds, selected, failure, snapshot, hrun, hperforms⟩ := h.run_performs hc
  have hpieces := hperforms.pieces_stdout hm
  refine ⟨o, w', rounds, selected, failure, snapshot, hrun, hperforms, hperforms.host_mem, hpieces,
    ?_⟩
  rw [hpieces, List.append_left_inj, Text.flatMap_pieces_eq_self_iff]
  exact List.forall_mem_map

theorem run_lines_three :
    ∃ o w' rounds selected failure snapshot,
      (run tiring ["select", "-p", "host=a,b", "-p", "user=u", "-p", "sshKey=k", "-n", "3"]).run 0 =
        pure (o, w') ∧
      Performs tiring { properties := ["host=a,b", "user=u", "sshKey=k"], count := 3 }
        Config.twoHosts 0 o w' rounds selected failure snapshot ∧
      o.stdout = "a\nb\na\n" ∧ selected.map Selected.host = ["a", "b", "a"] := by
  have hb : Builds tiring
      ["select", "-p", "host=a,b", "-p", "user=u", "-p", "sshKey=k", "-n", "3"] 0
      { properties := ["host=a,b", "user=u", "sshKey=k"], count := 3 }
      (.ofList [("host", "a,b"), ("user", "u"), ("sshKey", "k")]) 0 := ⟨rfl, none, .absent, rfl⟩
  obtain ⟨o, w', rounds, selected, failure, snapshot, hrun, hperforms, hmem, -, hlines⟩ :=
    run_lines hb (c := Config.twoHosts) rfl rfl
  have hstdout : o.stdout = "a\nb\na\n" := by
    rw [← show _ = o from congrArg Prod.fst hrun]
    decide +kernel
  refine ⟨o, w', rounds, selected, failure, snapshot, hrun, hperforms, hstdout, ?_⟩
  have hplain : ∀ x ∈ selected, '\n' ∉ x.host.toList := by
    intro x hx
    rcases List.mem_pair.1 (hmem x hx) with ha | hb
    · rw [ha]
      decide
    · rw [hb]
      decide
  have hpieces : Text.pieces '\n' o.stdout = ["a", "b", "a"] ++ [""] := by
    rw [hstdout]
    decide
  exact List.append_cancel_right ((hlines.2 hplain).symm.trans hpieces)

def torn : Config where
  hosts := ["a\nb"]
  credentials := { user := "u", sshKey := "k" }
  hosts_ne_nil := List.cons_ne_nil _ _
  isHost := List.forall_mem_singleton.2 ⟨by decide, by decide, by decide⟩

/-- Such a host is accepted and selected, and written as two lines. -/
theorem run_lines_torn :
    Config.ofProperties (.ofList [("host", "a\nb"), ("user", "u"), ("sshKey", "k")]) = .ok torn ∧
    ∃ o w' rounds selected failure snapshot,
      (run tiring ["select", "-p", "host=a\nb", "-p", "user=u", "-p", "sshKey=k"]).run 0 =
        pure (o, w') ∧
      Performs tiring { properties := ["host=a\nb", "user=u", "sshKey=k"] } torn 0 o w' rounds
        selected failure snapshot ∧
      o.stdout = "a\nb\n" ∧ o.exitCode = 0 ∧ selected.map Selected.host = ["a\nb"] ∧
      Text.pieces '\n' o.stdout = ["a", "b"] ++ [""] ∧
      Text.pieces '\n' o.stdout ≠ selected.map Selected.host ++ [""] := by
  have hc : Config.ofProperties (.ofList [("host", "a\nb"), ("user", "u"), ("sshKey", "k")]) =
    .ok torn := rfl
  have hb : Builds tiring ["select", "-p", "host=a\nb", "-p", "user=u", "-p", "sshKey=k"] 0
      { properties := ["host=a\nb", "user=u", "sshKey=k"] }
      (.ofList [("host", "a\nb"), ("user", "u"), ("sshKey", "k")]) 0 := ⟨rfl, none, .absent, rfl⟩
  obtain ⟨o, w', rounds, selected, failure, snapshot, hrun, hperforms⟩ := hb.run_performs hc
  have hstdout : o.stdout = "a\nb\n" := by
    rw [← show _ = o from congrArg Prod.fst hrun]
    decide +kernel
  have hexit : o.exitCode = 0 := by
    rw [← show _ = o from congrArg Prod.fst hrun]
    decide +kernel
  have hselected : selected.map Selected.host = ["a\nb"] := by
    obtain ⟨x, rfl⟩ := List.length_eq_one_iff.1 (hperforms.done_iff.1 hexit)
    have hx : x.host ∈ ["a\nb"] := hperforms.host_mem x List.mem_cons_self
    rw [List.map_singleton, List.mem_singleton.1 hx]
  have hpieces : Text.pieces '\n' o.stdout = ["a", "b"] ++ [""] := by
    rw [hstdout]
    decide
  refine ⟨hc, o, w', rounds, selected, failure, snapshot, hrun, hperforms, hstdout, hexit,
    hselected, hpieces, ?_⟩
  rw [hpieces, hselected]
  decide

end HostRotation.Command
