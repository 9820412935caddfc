import HostRotation.Proofs.Selection.Visits

namespace HostRotation

theorem SocketProbe.liveness_judge_eq_alive_iff {host : String} {port : UInt16} {limit : Timespan}
    {connection : Connection} :
    (judge host port limit connection).liveness = .alive ↔ connection = .accepted := by
  cases connection <;> simp [judge]

theorem PingProbe.liveness_judge_eq_alive_iff {program host : String} {limit : Timespan}
    {run : Execution} :
    (judge program host limit run).liveness = .alive ↔
      ∃ output error, run = .ended (some 0) output error := by
  match run with
  | .notStarted _ | .lost _ | .killed => simp [judge]
  | .ended none _ _ | .ended (some 0) _ _ | .ended (some (_ + 1)) _ _ => simp [judge]

namespace Probe

def Finding : Probe → Type
  | .noop => Unit
  | .socket _ => Connection
  | .ping _ => Execution

/-- What a probe must meet for the host to be alive: a connection that is accepted, or a program
that ends by itself with exit code zero while it may run. -/
def Passes : (p : Probe) → p.Finding → Prop
  | .noop, _ => True
  | .socket _, (connection : Connection) => connection = .accepted
  | .ping _, (run : Execution) => ∃ output error, run = .ended (some 0) output error

def source? : Probe → Option Log.Source
  | .noop => none
  | .socket _ => some .socketProbe
  | .ping _ => some .pingProbe

def judge (host : String) (limit : Timespan) : (p : Probe) → p.Finding → Check
  | .noop, _ => { liveness := .alive }
  | .socket port, connection => SocketProbe.judge host port limit connection
  | .ping program, run => PingProbe.judge program host limit run

section Effects

variable {m : Type → Type} [Monad m] (outside : Surroundings m) (host : String) (limit : Timespan)

def meet : (p : Probe) → m p.Finding
  | .noop => (pure () : m Unit)
  | .socket port => outside.connect host port limit
  | .ping program =>
    outside.execute program (PingProbe.arguments host limit) (PingProbe.runLimit limit)

/-- Checks a host and keeps what the probe met. The clock is read before and after. -/
def encounter (p : Probe) : m p.Finding := do
  let _ ← outside.clock
  let finding ← p.meet outside host limit
  let _ ← outside.clock
  return finding

theorem check_eq_judge [LawfulMonad m] (p : Probe) :
    p.check outside host limit = p.judge host limit <$> p.meet outside host limit := by
  cases p with
  | noop => exact (map_pure (f := m) (fun _ : Unit => ({ liveness := .alive } : Check)) ()).symm
  | socket port => exact (map_eq_pure_bind (m := m) _ _).symm
  | ping program => exact (map_eq_pure_bind (m := m) _ _).symm

end Effects

variable {p : Probe} {host : String} {limit : Timespan} {finding : p.Finding}

theorem liveness_judge_eq_alive_iff :
    (p.judge host limit finding).liveness = .alive ↔ p.Passes finding := by
  cases p with
  | noop => exact iff_of_true rfl trivial
  | socket port => exact SocketProbe.liveness_judge_eq_alive_iff
  | ping program => exact PingProbe.liveness_judge_eq_alive_iff

theorem run_answer {σ : Type} {outside : Surroundings (StateM σ)} {w w' : σ} {a : Answer}
    (h : (p.answer outside host limit).run w = pure (a, w')) :
    ∃ finding, (p.encounter outside host limit).run w = pure (finding, w') ∧
      a.check = p.judge host limit finding := by
  obtain ⟨start, w₁, hstart⟩ := exists_run outside.clock w
  obtain ⟨finding, w₂, hmeet⟩ := exists_run (p.meet outside host limit) w₁
  obtain ⟨finish, w₃, hfinish⟩ := exists_run outside.clock w₂
  have hanswer : (p.answer outside host limit).run w =
      pure ({ check := p.judge host limit finding, latency := .ofNat (finish - start) }, w₃) := by
    simp [answer, check_eq_judge, hstart, hmeet, hfinish]
  rw [hanswer] at h
  cases h
  refine ⟨finding, ?_, rfl⟩
  simp [encounter, hstart, hmeet, hfinish]

end Probe

namespace Visit

/-- What a position shows in the log of a selection with some probe: one entry if it is skipped, and
one if the probe asked for anything. -/
inductive Logs (p : Probe) : Visit → List Log.Entry → Prop where
  | skipped (stop : Stop) :
    Logs p ⟨stop, none⟩
      [⟨.debug, .selection, "Skipping excluded edge node '" ++ stop.host ++ "'"⟩]
  | unchecked (stop : Stop) (a : Answer) (hp : p.source? = none)
    (ha : a.check.liveness = .alive) : Logs p ⟨stop, some a⟩ []
  | passed (stop : Stop) (a : Answer) (source : Log.Source) (rest : String)
    (hp : p.source? = some source) (ha : a.check.liveness = .alive) :
    Logs p ⟨stop, some a⟩ [⟨.debug, source, "Edge node '" ++ stop.host ++ "' check " ++ rest⟩]
  | failed (stop : Stop) (a : Answer) (source : Log.Source) (rest : String)
    (hp : p.source? = some source) (ha : a.check.liveness = .dead) :
    Logs p ⟨stop, some a⟩ [⟨.warn, source, "Edge node '" ++ stop.host ++ "' check " ++ rest⟩]

theorem Logs.of_judge {p : Probe} {stop : Stop} {a : Answer} {limit : Timespan}
    {finding : p.Finding} (h : a.check = p.judge stop.host limit finding) :
    Logs p ⟨stop, some a⟩ a.check.entries := by
  obtain ⟨check, latency⟩ := a
  obtain rfl : check = p.judge stop.host limit finding := h
  cases p with
  | noop => exact .unchecked stop _ rfl rfl
  | socket port =>
    match finding with
    | .accepted => exact .passed stop _ .socketProbe _ rfl rfl
    | .failed _ | .unanswered => exact .failed stop _ .socketProbe _ rfl rfl
  | ping program =>
    -- of all the ways in which a run can end, only exit code zero is no warning
    match finding with
    | .ended (some 0) _ _ => exact .passed stop _ .pingProbe _ rfl rfl
    | .ended none _ _ | .ended (some (_ + 1)) _ _ | .notStarted _ | .lost _ | .killed =>
      exact .failed stop _ .pingProbe _ rfl rfl

theorem Logs.countP_warn {p : Probe} {v : Visit} {entries : List Log.Entry} (h : v.Logs p entries) :
    entries.countP (·.level = .warn) = if v.found = some .dead then 1 else 0 := by
  cases h with
  | skipped stop => rfl
  | unchecked stop a hp ha => simp [found, ha]
  | passed stop a source rest hp ha => simp [found, ha]
  | failed stop a source rest hp ha => simp [found, ha]

theorem countP_warn_flatten {p : Probe} {visits : List Visit} {logs : List (List Log.Entry)}
    (h : List.Forall₂ (Logs p) visits logs) :
    logs.flatten.countP (·.level = .warn) = visits.countP (·.found = some .dead) := by
  induction h with
  | nil => rfl
  | @cons v entries visits logs hv _ ih =>
    rw [List.flatten_cons, List.countP_append, hv.countP_warn, ih, List.countP_cons, Nat.add_comm]
    simp only [decide_eq_true_eq]

def Judged (p : Probe) (limit : Timespan) (v : Visit) (finding : p.Finding) : Prop :=
  ∃ a, v.answer = some a ∧ a.check = p.judge v.stop.host limit finding

variable {p : Probe} {limit : Timespan}

theorem Judged.found_eq_alive_iff {v : Visit} {finding : p.Finding} (h : v.Judged p limit finding) :
    v.found = some .alive ↔ p.Passes finding := by
  obtain ⟨a, ha, hcheck⟩ := h
  rw [← Probe.liveness_judge_eq_alive_iff, ← hcheck, found, ha, Option.map_some, Option.some_inj]

theorem exists_findings {σ : Type} {outside : Surroundings (StateM σ)} {visits : List Visit}
    {w w' : σ}
    (h : ((probed visits).mapM fun stop => p.answer outside stop.host limit).run w =
      pure (visits.filterMap Visit.answer, w')) :
    ∃ findings,
      ((probed visits).mapM fun stop => p.encounter outside stop.host limit).run w =
        pure (findings, w') ∧
      List.Forall₂ (Judged p limit) (visits.filter (·.answer.isSome)) findings := by
  induction visits generalizing w with
  | nil =>
    cases h
    exact ⟨[], rfl, .nil⟩
  | cons v visits ih =>
    obtain ⟨stop, answer⟩ := v
    cases answer with
    | none => exact ih h
    | some a =>
      obtain ⟨a', w₁, ha⟩ := exists_run (p.answer outside stop.host limit) w
      obtain ⟨rest, w₂, hrest⟩ :=
        exists_run ((probed visits).mapM fun stop => p.answer outside stop.host limit) w₁
      have hrun : ((probed (⟨stop, some a⟩ :: visits)).mapM
          fun stop => p.answer outside stop.host limit).run w = pure (a' :: rest, w₂) := by
        simp [ha, hrest]
      rw [hrun] at h
      cases h
      -- the other probes start where this one has left its surroundings
      obtain ⟨findings, hfindings, hjudged⟩ := ih hrest
      obtain ⟨finding, hfinding, hcheck⟩ := Probe.run_answer ha
      refine ⟨finding :: findings, ?_, .cons ⟨a, rfl, hcheck⟩ hjudged⟩
      simp [hfinding, hfindings]

theorem logs_of_judged {visits : List Visit} {findings : List p.Finding}
    (h : List.Forall₂ (Judged p limit) (visits.filter (·.answer.isSome)) findings) :
    List.Forall₂ (Logs p) visits (visits.map fun v => v.event.entries) := by
  induction visits generalizing findings with
  | nil => exact .nil
  | cons v visits ih =>
    obtain ⟨stop, answer⟩ := v
    cases answer with
    | none => exact .cons (.skipped stop) (ih h)
    | some a =>
      cases h with
      | cons hv hvisits =>
        obtain ⟨_, ha, hcheck⟩ := hv
        cases ha
        exact .cons (.of_judge hcheck) (ih hvisits)

end Visit

namespace Request

def closingEntry (r : Request) : Except NoLiveHost Selected → Log.Entry
  | .ok x => ⟨.debug, .selection, "Selected edge node '" ++ x.host ++ "' (index " ++
      Text.numeral x.index ++ ") for profile '" ++ r.profile ++ "'"⟩
  | .error e => ⟨.warn, .selection, "Profile '" ++ r.profile ++ "': " ++ e.message⟩

theorem entries_closing (r : Request) (result : Except NoLiveHost Selected) :
    (r.closing result).entries = [r.closingEntry result] := by
  cases result <;> rfl

/-- How the log of a selection with some probe goes with its visits, with what the probe met at
those that were not skipped, and with the result. -/
structure Logged (r : Request) (p : Probe) (visits : List Visit) (findings : List p.Finding)
    (result : Except NoLiveHost Selected) (entries : List Log.Entry) : Prop where
  alive : List.Forall₂ (fun v finding => v.found = some .alive ↔ p.Passes finding)
    (visits.filter (·.answer.isSome)) findings
  in_order : ∃ logs, List.Forall₂ (Visit.Logs p) visits logs ∧
    entries = logs.flatten ++ [r.closingEntry result]
  warnings : entries.countP (·.level = .warn) =
    visits.countP (·.found = some .dead) + if result.isOk then 0 else 1

theorem logged_of_judged {r : Request} {p : Probe} {limit : Timespan} {visits : List Visit}
    {findings : List p.Finding} {result : Except NoLiveHost Selected}
    (h : List.Forall₂ (Visit.Judged p limit) (visits.filter (·.answer.isSome)) findings) :
    Logged r p visits findings result
      ((visits.map Visit.event ++ [r.closing result]).flatMap Event.entries) := by
  have hlogs := Visit.logs_of_judged h
  have hentries : (visits.map Visit.event ++ [r.closing result]).flatMap Event.entries =
      (visits.map fun v => v.event.entries).flatten ++ [r.closingEntry result] := by
    rw [List.flatMap_append, List.flatMap_map, List.flatMap_singleton, entries_closing]
    rfl
  rw [hentries]
  refine ⟨h.imp fun _ _ => Visit.Judged.found_eq_alive_iff, ⟨_, hlogs, rfl⟩, ?_⟩
  rw [List.countP_append, Visit.countP_warn_flatten hlogs]
  cases result <;> rfl

end Request

open Request in
/-- A selection logs one entry for each position that it skips, one for each that it probes unless
the probe asks for nothing, and one for its end; what is dead or fails is a warning. It probes by
any of the probes, of which the configured one is a case (`Request.probe_eq_probeBy`). -/
theorem Shared.select_logged {σ : Type} (choice : Request → Probe)
    (outside : Surroundings (StateM σ)) (s : Shared) (metered : Bool) (r : Request) (w : σ) :
    ∃ visits findings result after w',
      (s.select metered (fun r => probeBy (choice r) outside r) r).run w =
        pure ((visits.map Visit.event ++ [r.closing result], .ended result, after), w') ∧
      Selects r (s.cursors.value r.profile) visits result ∧
      ((Visit.probed visits).mapM fun stop =>
        (choice r).encounter outside stop.host r.config.checkTime).run w = pure (findings, w') ∧
      Logged r (choice r) visits findings result
        ((visits.map Visit.event ++ [r.closing result]).flatMap Event.entries) := by
  obtain ⟨visits, result, w', hw, hp, h⟩ :=
    r.walk_visits (fun r stop => (choice r).answer outside stop.host r.config.checkTime)
      (r.config.stops (s.cursors.value r.profile)) w
  obtain ⟨findings, hfindings, hjudged⟩ := Visit.exists_findings hp
  refine ⟨visits, findings, result,
    (s.advance r.profile).record metered (visits.map Visit.event ++ [r.closing result]), w', ?_,
    h.selects, hfindings, logged_of_judged hjudged⟩
  rw [select_eq_walk, StateT.run_map]
  exact congrArg _ hw

end HostRotation
