import HostRotation.Proofs.Selection.Accounting
import HostRotation.Selection.Rounds

namespace HostRotation

def Turn.call? (t : Turn) : Option Call :=
  match t.task with
  | .inl _ => none
  | .inr call => some call

namespace Pool

def live (p : Pool) : List Call :=
  (p.tasks.filter fun t => !t.dropped).map Task.call

theorem perm_live {p : Pool} {before after : List Task} {t : Task}
    (ht : p.tasks = before ++ t :: after) (hd : t.dropped = false) :
    p.live.Perm (t.call :: ((before ++ after).filter fun t => !t.dropped).map Task.call) := by
  simp only [live, ht, List.filter_append, List.map_append, List.filter_cons, hd]
  exact List.perm_middle

/-- A pool in the state of selections that take turns: the calls in the queue are among its own. -/
structure Holds (p : Pool) (o : Outcome) (queue : List Turn) : Prop where
  shared : p.shared = o.shared
  quiet : p.Quiet
  calls : ∃ rest, p.live.Perm (queue.filterMap Turn.call? ++ rest)

theorem Holds.exists_task {p : Pool} {o : Outcome} {t : Turn} {queue : List Turn} {call : Call}
    (h : Holds p o (t :: queue)) (ht : t.call? = some call) :
    ∃ before task after rest, p.tasks = before ++ task :: after ∧ task.call = call ∧
      task.dropped = false ∧ task.unwritten = [] ∧
      (((before ++ after).filter fun t => !t.dropped).map Task.call).Perm
        (queue.filterMap Turn.call? ++ rest) := by
  obtain ⟨rest, hperm⟩ := h.calls
  rw [List.filterMap_cons_some ht, List.cons_append] at hperm
  have hmem : call ∈ p.live := hperm.mem_iff.2 List.mem_cons_self
  obtain ⟨task, hlive, rfl⟩ := List.mem_map.1 hmem
  obtain ⟨htask, hd⟩ := List.mem_filter.1 hlive
  rw [Bool.not_eq_true'] at hd
  obtain ⟨before, after, htasks⟩ := List.append_of_mem htask
  refine ⟨before, task, after, rest, htasks, rfl, hd, h.quiet task htask, ?_⟩
  exact ((perm_live htasks hd).symm.trans hperm).cons_inv

theorem Quiet.replace {p : Pool} {before after : List Task} {task task' : Task} (hq : p.Quiet)
    (ht : p.tasks = before ++ task :: after) (hw : task'.unwritten = []) :
    ∀ t ∈ before ++ task' :: after, t.unwritten = [] := by
  intro t hmem
  rw [List.mem_append, List.mem_cons] at hmem
  have hold : ∀ t, t ∈ before ∨ t ∈ after → t.unwritten = [] := by
    intro t h
    apply hq
    rw [ht, List.mem_append, List.mem_cons]
    rcases h with h | h
    · exact .inl h
    · exact .inr (.inr h)
  rcases hmem with h | rfl | h
  · exact hold t (.inl h)
  · exact hw
  · exact hold t (.inr h)

theorem Holds.started {p : Pool} {o : Outcome} {number : Nat} {r : Request} {queue : List Turn}
    (h : Holds p o (⟨number, true, .inl r⟩ :: queue)) :
    ∃ q, Steps p q ∧ Holds q
      (o.note (o.shared.begin true r).1 (o.shared.begin true r).2.1 (o.shared.begin true r).2.2)
      (queue ++ [⟨number, true, .inr (o.shared.begin true r).2.1⟩]) := by
  refine ⟨_, steps_begin p r, ?_, ?_, ?_⟩
  · rw [h.shared]
    rfl
  · intro t ht
    rcases List.mem_append.1 ht with ht | ht
    · exact h.quiet t ht
    · rw [List.mem_singleton.1 ht]
  · obtain ⟨rest, hperm⟩ := h.calls
    refine ⟨rest, ?_⟩
    have hcall := hperm.append_right [(o.shared.begin true r).2.1]
    simp only [live, List.filter_append, List.map_append, List.filterMap_append, h.shared]
      at hcall ⊢
    refine hcall.trans ?_
    rw [List.append_assoc, List.append_assoc]
    exact List.Perm.append_left _ List.perm_append_comm

theorem Holds.answered {p : Pool} {o : Outcome} {number : Nat} {r : Request} {stop : Stop}
    {ahead : Thunk (List Stop)} {queue : List Turn}
    (h : Holds p o (⟨number, true, .inr (.pending r stop ahead)⟩ :: queue)) (a : Answer) :
    ∃ q, Steps p q ∧ Holds q
      (o.note (Call.answered r stop ahead a).1 (Call.answered r stop ahead a).2
        (o.shared.record true (Call.answered r stop ahead a).1))
      (queue ++ [⟨number, true, .inr (Call.answered r stop ahead a).2⟩]) := by
  obtain ⟨before, task, after, rest, htasks, hc, hd, hw, hperm⟩ := h.exists_task rfl
  refine ⟨_, steps_answered htasks hc hd hw a, ?_, ?_, rest, ?_⟩
  · rw [h.shared]
    rfl
  · exact h.quiet.replace htasks hw
  · refine (perm_live (t := { task with call := (Call.answered r stop ahead a).2 }) rfl hd).trans ?_
    refine (hperm.cons _).trans ?_
    rw [List.filterMap_append, ← List.cons_append]
    exact List.Perm.append_right _ (List.perm_append_singleton _ _).symm

theorem Holds.ended {p : Pool} {o : Outcome} {number : Nat} {metered : Bool}
    {result : Except NoLiveHost Selected} {queue : List Turn}
    (h : Holds p o (⟨number, metered, .inr (.ended result)⟩ :: queue)) :
    Holds p (o.finish number (.ended result)) queue := by
  obtain ⟨rest, hperm⟩ := h.calls
  exact ⟨h.shared, h.quiet, _, hperm.trans List.perm_middle.symm⟩

theorem Holds.dropped {p : Pool} {o : Outcome} {number : Nat} {r : Request} {stop : Stop}
    {ahead : Thunk (List Stop)} {queue : List Turn}
    (h : Holds p o (⟨number, true, .inr (.pending r stop ahead)⟩ :: queue)) :
    ∃ q, Steps p q ∧ Holds q (o.finish number (.pending r stop ahead)) queue := by
  obtain ⟨before, task, after, rest, htasks, hc, hd, hw, hperm⟩ := h.exists_task rfl
  refine ⟨_, .single (.drop htasks hc hw), h.shared, ?_, rest, ?_⟩
  · exact h.quiet.replace htasks hw
  · simpa [live] using hperm

theorem metered_append {queue : List Turn} {t u : Turn}
    (hm : ∀ u ∈ t :: queue, u.metered = true) (hu : u.metered = t.metered) :
    ∀ v ∈ queue ++ [u], v.metered = true := by
  intro v hv
  rcases List.mem_append.1 hv with hv | hv
  · exact hm v (List.mem_cons_of_mem t hv)
  · rw [List.mem_singleton.1 hv, hu]
    exact hm t List.mem_cons_self

theorem Holds.drive {σ : Type} (probe : Request → Stop → StateM σ (Option Answer)) {p : Pool}
    {o : Outcome} {queue : List Turn} (h : Holds p o queue) (hm : ∀ t ∈ queue, t.metered = true)
    (w : σ) :
    ∃ q o' w', (o.drive probe queue).run w = pure (o', w') ∧ Steps p q ∧ q.Quiet ∧
      q.shared = o'.shared := by
  fun_induction Outcome.drive probe o queue generalizing p w
  case case1 o => exact ⟨p, o, w, rfl, .refl, h.quiet, h.shared⟩
  case case2 o number metered r queue _ first o₁ ih =>
    obtain rfl : metered = true := hm _ List.mem_cons_self
    obtain ⟨p₁, hsteps, h₁⟩ := h.started
    obtain ⟨q, o', w', hrun, hq, hquiet, hshared⟩ := ih h₁ (metered_append hm rfl) w
    exact ⟨q, o', w', hrun, hsteps.trans hq, hquiet, hshared⟩
  case case3 o number metered result queue ih =>
    obtain ⟨q, o', w', hrun, hq, hquiet, hshared⟩ :=
      ih h.ended (fun t ht => hm t (List.mem_cons_of_mem _ ht)) w
    exact ⟨q, o', w', hrun, hq, hquiet, hshared⟩
  case case4 o number metered r stop ahead queue ihNone ihSome =>
    obtain rfl : metered = true := hm _ List.mem_cons_self
    obtain ⟨answer, w₁, hprobe⟩ : ∃ a w₁, (probe r stop).run w = pure (a, w₁) := ⟨_, _, rfl⟩
    cases answer with
    | none =>
      obtain ⟨p₁, hsteps, h₁⟩ := h.dropped
      obtain ⟨q, o', w', hrun, hq, hquiet, hshared⟩ :=
        ihNone h₁ (fun t ht => hm t (List.mem_cons_of_mem _ ht)) w₁
      exact ⟨q, o', w', by simpa [hprobe] using hrun, hsteps.trans hq, hquiet, hshared⟩
    | some a =>
      obtain ⟨p₁, hsteps, h₁⟩ := h.answered a
      obtain ⟨q, o', w', hrun, hq, hquiet, hshared⟩ := ihSome a h₁ (metered_append hm rfl) w₁
      exact ⟨q, o', w', by simpa [hprobe] using hrun, hsteps.trans hq, hquiet, hshared⟩

/-- Metered selections that take turns from the start do what a pool can do. -/
theorem reachable_drive {σ : Type} (probe : Request → Stop → StateM σ (Option Answer)) (c : Cursors)
    (requests : List (Nat × Request)) (w : σ) :
    ∃ q o' w',
      (Outcome.drive probe { shared := { cursors := c } }
        (requests.map fun x => ⟨x.1, true, .inl x.2⟩)).run w = pure (o', w') ∧
      Reachable c q ∧ q.Quiet ∧ q.shared = o'.shared := by
  have h : Holds (ofCursors c) { shared := { cursors := c } }
      (requests.map fun x => ⟨x.1, true, .inl x.2⟩) := by
    refine ⟨rfl, by simp [Quiet, ofCursors], [], ?_⟩
    simp [live, ofCursors, List.filterMap_map, Turn.call?]
  apply h.drive probe
  intro t ht
  obtain ⟨x, -, rfl⟩ := List.mem_map.1 ht
  rfl

end Pool
end HostRotation
