import HostRotation.Proofs.Command.Configured
import HostRotation.Proofs.Selection.Series
import HostRotation.Proofs.Snapshot.RoundTrip

namespace HostRotation

theorem Tally.selectedCount_snapshot (t : Tally) (uptime : UInt64) (host : String) :
    (t.snapshot uptime).selectedCount host = (t.host host).selected := by
  rw [Snapshot.selectedCount, getElem?_hosts_snapshot, Tally.host]
  cases t.hosts[host]? <;> rfl

namespace Command

variable {σ : Type} (outside : Outside (StateM σ))

def SelectArgs.request (a : SelectArgs) (c : Config) : Request where
  config := c
  profile := a.profile
  exclude := a.exclude

def checkStop (r : Request) (stop : Stop) : StateM σ Answer :=
  (Probe.ofConfig r.config).answer outside.toSurroundings stop.host r.config.checkTime

/-- What a run does with a configuration, from one state of its surroundings to another: its rounds,
the hosts that they select, the failure that ends them, and the snapshot of their counts. -/
structure Performs (a : SelectArgs) (c : Config) (w : σ) (o : Output) (w' : σ)
    (rounds : List Round) (selected : List Selected) (failure : Option NoLiveHost)
    (snapshot : Snapshot) : Prop where
  walks : ∀ i round, rounds[i]? = some round →
    ∃ cursor : UInt64, cursor.toNat = i ∧ (a.request c).Selects cursor round.visits round.result
  ended : rounds.map Round.result =
    selected.map Except.ok ++ failure.toList.map Except.error
  length_le : selected.length ≤ a.count.toNat
  complete_iff : selected.length = a.count.toNat ↔ failure = none
  effects : ∃ start w₁ w₂ finish, outside.clock.run w = pure (start, w₁) ∧
    ((rounds.flatMap Round.probed).mapM (checkStop outside (a.request c))).run w₁ =
      pure (rounds.flatMap Round.answers, w₂) ∧
    outside.clock.run w₂ = pure (finish, w')
  stdout : o.stdout = String.join (selected.map fun x => x.host ++ "\n") ++
    if a.metrics then snapshot.toJson.pretty ++ "\n" else ""
  printed : a.metrics = true → ∃ text,
    o.stdout = String.join (selected.map fun x => x.host ++ "\n") ++ text ∧
      snapshot.IsPrintedAs text
  selections : snapshot.selections.toNat = selected.length
  failed : snapshot.failed.toNat = if failure.isSome then 1 else 0
  selectedCount : ∀ host,
    (snapshot.selectedCount host).toNat = (selected.map Selected.host).count host
  done_iff : o.exitCode = 0 ↔ selected.length = a.count.toNat
  retryable_iff : o.exitCode = 75 ↔ ∃ round ∈ rounds, ∃ e, round.result = .error e

def seriesOutput (a : SelectArgs) (c : Config) (series : Series) (uptime : UInt64) : Output where
  lines := series.selected.map Selected.host
  snapshot := if a.metrics then some (series.shared.tally.snapshot uptime) else none
  entries := c.readEntry :: selectingEntry a c :: series.events.flatMap Event.entries
  ending :=
    match series.failure with
    | some e => .failed { cause := .fault (.noLiveHost e) }
    | none => .done

theorem stdout_seriesOutput (a : SelectArgs) (c : Config) (series : Series) (uptime : UInt64) :
    (seriesOutput a c series uptime).stdout =
      String.join (series.selected.map fun x => x.host ++ "\n") ++
        if a.metrics then (series.shared.tally.snapshot uptime).toJson.pretty ++ "\n" else "" := by
  cases hm : a.metrics <;> simp [seriesOutput, Output.stdout, hm, Output.line, Output.snapshotText,
    Function.comp_def]

theorem exitCode_seriesOutput (a : SelectArgs) (c : Config) (series : Series) (uptime : UInt64) :
    (seriesOutput a c series uptime).exitCode = if series.failure.isSome then 75 else 0 := by
  cases hf : series.failure <;>
    simp [seriesOutput, Output.exitCode, hf, Ending.exitCode, Failure.exitCode, Fault.isRetryable]

theorem run_selectHosts (a : SelectArgs) (c : Config) (w : σ) :
    ∃ series rounds uptime w', (selectHosts outside a c).run w =
        pure (seriesOutput a c series uptime, w') ∧
      series.Follows (a.request c) 0 a.count.toNat rounds ∧
      series.shared.tally = series.events.foldl Tally.observe {} ∧
      ∃ start w₁ w₂ finish, outside.clock.run w = pure (start, w₁) ∧
        ((rounds.flatMap Round.probed).mapM (checkStop outside (a.request c))).run w₁ =
          pure (rounds.flatMap Round.answers, w₂) ∧
        outside.clock.run w₂ = pure (finish, w') := by
  obtain ⟨start, w₁, hstart⟩ := exists_run outside.clock w
  obtain ⟨series, rounds, w₂, hseries, hfollows, hprobes, htally⟩ :=
    Shared.selectUntil_rounds (checkStop outside) (a.request c) true {} a.count.toNat w₁
  obtain ⟨finish, w', hfinish⟩ := exists_run outside.clock w₂
  refine ⟨series, rounds, .ofNat ((finish - start) / 1000), w', ?_, hfollows, htally, start, w₁, w₂,
    finish, hstart, hprobes, hfinish⟩
  have hseries' : (Shared.selectUntil {} true (Request.probe outside.toSurroundings)
      { config := c, profile := a.profile, exclude := a.exclude } a.count.toNat).run w₁ =
        pure (series, w₂) := hseries
  simp only [selectHosts, StateT.run_bind, hstart, pure_bind, hseries', hfinish, StateT.run_pure]
  rfl

theorem selectHosts_performs (a : SelectArgs) (c : Config) (w : σ) :
    ∃ o w' rounds selected failure snapshot, (selectHosts outside a c).run w = pure (o, w') ∧
      Performs outside a c w o w' rounds selected failure snapshot := by
  obtain ⟨series, rounds, uptime, w', hrun, hfollows, htally, heffects⟩ :=
    run_selectHosts outside a c w
  have hn : a.count.toNat < UInt64.size := a.count.toNat_lt.trans (by decide)
  have hcounts := hfollows.counts hn htally
  refine ⟨_, w', rounds, series.selected, series.failure, series.shared.tally.snapshot uptime, hrun,
    ?_⟩
  exact {
    walks := fun i round hi => by
      have hround : i < rounds.length := (List.getElem?_eq_some_iff.1 hi).1
      have hlength := hfollows.length_rounds_le
      refine ⟨0 + .ofNat i, ?_, hfollows.selects i round hi⟩
      rw [UInt64.zero_add, UInt64.toNat_ofNat_of_lt' (by omega)]
    ended := hfollows.ended
    length_le := hfollows.length_le
    complete_iff := hfollows.complete_iff
    effects := heffects
    stdout := stdout_seriesOutput a c series uptime
    printed := fun hm => by
      rw [stdout_seriesOutput, if_pos hm]
      exact ⟨_, rfl, Snapshot.isPrintedAs_snapshotText _⟩
    selections := hcounts.selections
    failed := hcounts.failed
    selectedCount := fun host => by rw [Tally.selectedCount_snapshot, hcounts.selected]
    done_iff := by
      rw [exitCode_seriesOutput, hfollows.complete_iff]
      cases series.failure <;> simp
    retryable_iff := by
      rw [exitCode_seriesOutput, hfollows.exists_error_iff]
      cases series.failure <;> simp }

theorem exitCode_of_readMethod {name : String} {failure : Failure}
    (h : readMethod name = .error failure) : failure.exitCode = 1 := by
  rw [readMethod] at h
  split at h
  · cases h
  · obtain rfl := Except.error.inj h
    rfl

theorem run_probeHost (a : ProbeArgs) (method : CheckMethod) (w : σ) :
    ∃ o w', (probeHost outside a method).run w = pure (o, w') ∧
      (o.exitCode = 0 ∨ o.exitCode = 1) := by
  obtain ⟨check, w', hcheck⟩ : ∃ check w', ((Probe.ofMethod method a.port).check
      outside.toSurroundings a.host (.ofMillis a.timeout.toNat)).run w = pure (check, w') :=
    ⟨_, _, rfl⟩
  cases hl : check.liveness with
  | alive =>
    exact ⟨{ lines := ["alive"], entries := check.entries }, w', by simp [probeHost, hcheck, hl],
      .inl rfl⟩
  | dead =>
    refine ⟨_, w', by simp [probeHost, hcheck, hl]; rfl, .inr rfl⟩

theorem run_probe (a : ProbeArgs) (w : σ) :
    ∃ o w', (probe outside a).run w = pure (o, w') ∧ (o.exitCode = 0 ∨ o.exitCode = 1) := by
  rw [probe]
  split
  · exact ⟨_, w, rfl, .inr rfl⟩
  cases hm : readMethod a.method with
  | error failure =>
    exact ⟨{ ending := .failed failure }, w, rfl, .inr (exitCode_of_readMethod hm)⟩
  | ok method => exact run_probeHost outside a method w

/-- A run of `select` that comes to no configuration writes nothing and asks for nothing but its
file; any other writes the hosts of its series and, if it was asked to, their counts. Only a series
that ended without a live host makes the command ask to be tried again. -/
theorem run_outcome (args : List String) (w : σ) :
    ∃ o w', (run outside args).run w = pure (o, w') ∧
      (∀ a, Invocation.ofArguments args = .ok (.select a) →
        ∃ file w₁, Reads outside w a.config file w₁ ∧
          ((∀ c, ¬Configured file a c) → o.stdout = "" ∧ o.exitCode = 1 ∧ w' = w₁) ∧
          ∀ c, Configured file a c → ∃ rounds selected failure snapshot,
            Performs outside a c w₁ o w' rounds selected failure snapshot) ∧
      ((∀ a, Invocation.ofArguments args ≠ .ok (.select a)) → o.exitCode = 0 ∨ o.exitCode = 1) := by
  cases hargs : Invocation.ofArguments args with
  | error e =>
    refine ⟨{ ending := .misused e }, w, by simp [run, hargs], ?_, fun _ => .inr rfl⟩
    intro a h
    cases h
  | ok invocation =>
    cases invocation with
    | help page =>
      refine ⟨{ lines := [page.text] }, w, by simp [run, hargs], ?_, fun _ => .inl rfl⟩
      intro a h
      cases h
    | probe a =>
      obtain ⟨o, w', hrun, hexit⟩ := run_probe outside a w
      refine ⟨o, w', by simp [run, hargs, hrun], ?_, fun _ => hexit⟩
      intro a h
      cases h
    | select a =>
      obtain ⟨file, w₁, hfile⟩ := exists_reads outside a.config w
      by_cases hc : ∃ c, Configured file a c
      · obtain ⟨c, hc⟩ := hc
        obtain ⟨o, w', rounds, selected, failure, snapshot, hrun, hperforms⟩ :=
          selectHosts_performs outside a c w₁
        refine ⟨o, w', ?_, ?_, fun h => absurd rfl (h a)⟩
        · simp [run, hargs, run_select_of_configured hfile hc, hrun]
        · rintro _ ⟨⟩
          refine ⟨file, w₁, hfile, fun h => absurd hc (h c), fun c' hc' => ?_⟩
          obtain rfl := hc.unique hc'
          exact ⟨rounds, selected, failure, snapshot, hperforms⟩
      · obtain ⟨o, hrun, hstdout, hexit⟩ :=
          run_select_of_not_configured hfile (not_exists.1 hc)
        refine ⟨o, w₁, by simp [run, hargs, hrun], ?_, fun h => absurd rfl (h a)⟩
        rintro _ ⟨⟩
        exact ⟨file, w₁, hfile, fun _ => ⟨hstdout, hexit, rfl⟩, fun c h => absurd ⟨c, h⟩ hc⟩

/-- Surroundings in which the first connection is accepted and no later one. -/
def tiring : Outside (StateM Nat) where
  clock := pure 0
  connect _ _ _ := modifyGet fun n => (if n = 0 then .accepted else .unanswered, n + 1)
  execute _ _ _ := pure .killed
  fileContent _ := pure (.error "entity not found")

def tiringArgs : SelectArgs where
  properties := ["host=a,b", "user=u", "sshKey=k", "loadBalancingMethod=roundRobinSocket"]
  count := 3
  metrics := true

def unreadableArgs : SelectArgs where
  config := some "f"
  properties := ["host=a", "user=u", "sshKey=k"]

/-- The first selection finds a host and the second none, which makes the command ask to be tried
again. Without a configuration, with a file that cannot be read, or with another subcommand, it does
not. -/
theorem run_outcome_tiring :
    (∃ o w' rounds selected failure snapshot,
      (run tiring ["select", "-p", "host=a,b", "-p", "user=u", "-p", "sshKey=k", "-p",
        "loadBalancingMethod=roundRobinSocket", "-n", "3", "--metrics"]).run 0 = pure (o, w') ∧
      Performs tiring tiringArgs (Config.twoHosts.withMethod .socket) 0 o w' rounds selected failure
        snapshot ∧
      o.lines = ["a"] ∧ o.exitCode = 75) ∧
    (∃ o, (run tiring ["select", "--metrics"]).run 0 = pure (o, 0) ∧ o.stdout = "" ∧
      o.exitCode = 1) ∧
    (∃ o, (run tiring ["select", "-c", "f", "-p", "host=a", "-p", "user=u", "-p",
        "sshKey=k"]).run 0 = pure (o, 0) ∧ o.stdout = "" ∧ o.exitCode = 1) ∧
    ∃ o w', (run tiring ["probe", "a"]).run 1 = pure (o, w') ∧
      (o.exitCode = 0 ∨ o.exitCode = 1) := by
  refine ⟨?_, ?_, ?_, ?_⟩
  · have hc : Configured none tiringArgs (Config.twoHosts.withMethod .socket) :=
      ⟨.ofList [("host", "a,b"), ("user", "u"), ("sshKey", "k"),
        ("loadBalancingMethod", "roundRobinSocket")], rfl, rfl⟩
    obtain ⟨o, w', hrun, hselect, -⟩ := run_outcome tiring ["select", "-p", "host=a,b", "-p",
      "user=u", "-p", "sshKey=k", "-p", "loadBalancingMethod=roundRobinSocket", "-n", "3",
      "--metrics"] 0
    obtain ⟨file, w₁, hfile, -, hperforms⟩ := hselect tiringArgs rfl
    cases hfile
    obtain ⟨rounds, selected, failure, snapshot, h⟩ := hperforms _ hc
    refine ⟨o, w', rounds, selected, failure, snapshot, hrun, h, ?_⟩
    rw [← show _ = o from congrArg Prod.fst hrun]
    decide +kernel
  · have hmissing : ∀ c, ¬Configured none { metrics := true } c := by
      rintro c ⟨p, hp, hc⟩
      obtain rfl : ∅ = p := Except.ok.inj hp
      have herror : Config.ofProperties ∅ = .error (.missingKey Property.host) := rfl
      cases herror.symm.trans hc
    obtain ⟨o, w', hrun, hselect, -⟩ := run_outcome tiring ["select", "--metrics"] 0
    obtain ⟨file, w₁, hfile, hrefused, -⟩ := hselect { metrics := true } rfl
    cases hfile
    obtain ⟨hstdout, hexit, rfl⟩ := hrefused hmissing
    exact ⟨o, hrun, hstdout, hexit⟩
  · have hunreadable : ∀ c,
        ¬Configured (some ⟨"f", .error "entity not found"⟩) unreadableArgs c := by
      rintro c ⟨p, hp, -⟩
      cases hp
    obtain ⟨o, w', hrun, hselect, -⟩ := run_outcome tiring ["select", "-c", "f", "-p", "host=a",
      "-p", "user=u", "-p", "sshKey=k"] 0
    obtain ⟨file, w₁, hfile, hrefused, -⟩ := hselect unreadableArgs rfl
    cases hfile with
    | file h =>
      obtain ⟨rfl, rfl⟩ := Prod.mk.inj h
      obtain ⟨hstdout, hexit, rfl⟩ := hrefused hunreadable
      exact ⟨o, hrun, hstdout, hexit⟩
  · have hother : ∀ a, Invocation.ofArguments ["probe", "a"] ≠ .ok (.select a) := by
      intro a h
      cases h
    obtain ⟨o, w', hrun, -, hexit⟩ := run_outcome tiring ["probe", "a"] 1
    exact ⟨o, w', hrun, hexit hother⟩

end Command
end HostRotation
