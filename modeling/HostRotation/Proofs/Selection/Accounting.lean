import HostRotation.Proofs.Lists
import HostRotation.Proofs.Selection.Pool
import HostRotation.Proofs.Selection.Positions

namespace HostRotation

namespace Reply

def alive (x : Reply) : Bool :=
  x.answer.check.liveness.isAlive

def writes (x : Reply) : List Tally.Write :=
  (Event.probed x.host x.answer).writes

theorem mem_writes_iff (x : Reply) (w : Tally.Write) :
    w ∈ x.writes ↔ w = .probes ∨ w = .enter x.host ∨ (x.alive = true ∧ w = .success x.host) ∨
      (x.alive = false ∧ w = .failure x.host) ∨ w = .latency x.host x.answer.latency := by
  cases ha : x.answer.check.liveness.isAlive <;> simp [writes, Event.writes, alive, ha]

theorem nodup_writes (x : Reply) : x.writes.Nodup := by
  cases ha : x.answer.check.liveness.isAlive <;> simp [writes, Event.writes, ha]

end Reply

namespace Call

def returned (host : String) : Call → Bool
  | .ended (.ok x) => x.host = host
  | _ => false

def succeeded : Call → Bool
  | .ended (.ok _) => true
  | _ => false

def failed : Call → Bool
  | .ended (.error _) => true
  | _ => false

def writes : Call → List Tally.Write
  | .pending _ _ _ => []
  | .ended (.ok x) => [.selections, .enter x.host, .selected x.host]
  | .ended (.error _) => [.failed]

theorem mem_writes_iff (call : Call) (w : Tally.Write) :
    w ∈ call.writes ↔ (call.succeeded = true ∧ w = .selections) ∨
      (call.failed = true ∧ w = .failed) ∨
      ∃ host, call.returned host = true ∧ (w = .enter host ∨ w = .selected host) := by
  rcases call with _ | (_ | _) <;> simp [writes, succeeded, failed, returned]

theorem nodup_writes (call : Call) : call.writes.Nodup := by
  rcases call with _ | (_ | _) <;> simp [writes]

end Call

namespace Request

variable (r : Request) (ahead : List Stop)

theorem writes_proceed :
    (r.proceed ahead).1.flatMap Event.writes = (r.proceed ahead).2.writes := by
  induction ahead with
  | nil => rfl
  | cons s ahead ih =>
    rw [proceed]
    split
    · exact ih
    · rfl

theorem returned_proceed (host : String) : (r.proceed ahead).2.returned host = false := by
  induction ahead with
  | nil => rfl
  | cons s ahead ih =>
    rw [proceed]
    split
    · exact ih
    · rfl

end Request

namespace Task

theorem unwritten_start (r : Request) (v : UInt64) :
    (start r v).unwritten = (start r v).call.writes := by
  simp only [start, Request.start_eq_proceed, Request.writes_proceed]

theorem returned_start (r : Request) (v : UInt64) (host : String) :
    (start r v).call.returned host = false := by
  simp only [start, Request.start_eq_proceed, Request.returned_proceed]

variable {t : Task} {r : Request} {stop : Stop} {ahead : Thunk (List Stop)}

theorem unwritten_answer (hc : t.call = .pending r stop ahead) (a : Answer) :
    (t.answer a).unwritten = Reply.writes ⟨stop.host, a⟩ ++ (t.answer a).call.writes := by
  simp only [answer, hc, Call.answer, Call.answered]
  split
  · rfl
  · rw [List.flatMap_cons, Request.writes_proceed]
    rfl

theorem returned_answer (hc : t.call = .pending r stop ahead) (a : Answer) (host : String) :
    (t.answer a).call.returned host =
      (decide (stop.host = host) && Reply.alive ⟨stop.host, a⟩) := by
  simp only [answer, hc, Call.answer, Call.answered, Reply.alive]
  split
  · next ha => simp [Call.returned, ha]
  · next ha => simp [Request.returned_proceed, ha]

end Task

namespace Pool

def started (p : Pool) (profile : String) : Nat :=
  p.tasks.countP fun t => t.request.profile = profile

/-- What holds in every state of a pool. The changes that were made and those that are left are
those that count the replies and the ended calls, each as often. -/
structure Balanced (c : Cursors) (p : Pool) : Prop where
  cursor : ∀ q, p.shared.cursors.value q = c.value q + .ofNat (p.started q)
  written : ∃ ws : List Tally.Write, p.shared.tally = ws.foldl Tally.write {} ∧ ∀ w,
    ws.count w + (p.tasks.flatMap Task.unwritten).count w =
      (p.replies.flatMap Reply.writes).count w + (p.tasks.flatMap (·.call.writes)).count w
  alive : ∀ host, (p.replies.countP fun x => x.host = host && x.alive) =
    p.tasks.countP (·.call.returned host)

theorem countP_replaced {p : Pool} {before after : List Task} {t t' : Task}
    (ht : p.tasks = before ++ t :: after) {f : Task → Bool} (hf : f t' = f t) :
    (before ++ t' :: after).countP f = p.tasks.countP f := by
  simp only [ht, List.countP_append, List.countP_cons, hf]

theorem Balanced.step {c : Cursors} {p q : Pool} (h : Balanced c p) (hs : Step p q) :
    Balanced c q := by
  obtain ⟨ws, htally, hcount⟩ := h.written
  -- a start alone draws from a cursor, and a write alone takes a change off what is left to make
  cases hs with
  | start r =>
    refine ⟨fun q => ?_, ⟨ws, htally, fun w => ?_⟩, fun host => ?_⟩
    · have hv := h.cursor q
      rw [Cursors.value, Cursors.peek_draw]
      simp only [started, List.countP_append, List.countP_singleton, Task.start] at hv ⊢
      by_cases hq : r.profile = q
      · subst hq
        simp [hv, UInt64.ofNat_add, UInt64.add_assoc]
      · simpa [hq, Cursors.value] using hv
    · have hw := hcount w
      simp only [List.flatMap_append, List.flatMap_singleton, List.count_append,
        Task.unwritten_start]
      omega
    · have ha := h.alive host
      simpa [Task.returned_start] using ha
  | @reply before after t r stop ahead ht hc hd hw a =>
    refine ⟨fun q => ?_, ⟨ws, htally, fun w => ?_⟩, fun host => ?_⟩
    · have hv := h.cursor q
      rwa [started, ← countP_replaced ht] at hv
      rfl
    · have hcw := hcount w
      have hcall : t.call.writes = [] := by rw [hc]; rfl
      simp only [ht, List.flatMap_append, List.flatMap_cons, List.flatMap_nil, List.count_append,
        Task.unwritten_answer hc, hw, hcall, List.count_nil, List.append_nil] at hcw ⊢
      omega
    · have ha := h.alive host
      have hcall : t.call.returned host = false := by rw [hc]; rfl
      simp only [ht, List.countP_append, List.countP_cons, List.countP_nil, hcall,
        Task.returned_answer hc] at ha ⊢
      grind
  | @write before after t w ws' ht hw =>
    refine ⟨fun q => ?_, ⟨ws ++ [w], ?_, fun w' => ?_⟩, fun host => ?_⟩
    · have hv := h.cursor q
      rwa [started, ← countP_replaced ht] at hv
      rfl
    · simp [htally]
    · have hcw := hcount w'
      simp only [ht, List.flatMap_append, List.flatMap_cons, List.count_append, hw,
        List.count_cons, List.count_nil] at hcw ⊢
      omega
    · have ha := h.alive host
      rwa [← countP_replaced ht] at ha
      rfl
  | @drop before after t r stop ahead ht hc hw =>
    refine ⟨fun q => ?_, ⟨ws, htally, fun w => ?_⟩, fun host => ?_⟩
    · have hv := h.cursor q
      rwa [started, ← countP_replaced ht] at hv
      rfl
    · have hcw := hcount w
      simpa [ht] using hcw
    · have ha := h.alive host
      rwa [← countP_replaced ht] at ha
      rfl

end Pool
end HostRotation
