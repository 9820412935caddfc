import Mathlib.Logic.Relation
import HostRotation.Proofs.Selection.ByHost
import HostRotation.Proofs.Selection.Positions

namespace HostRotation

structure Member where
  request : Request
  metered : Bool
  events : List Event
  call : Call

namespace Member

def counted (t : Member) : List Event :=
  if t.metered then t.events else []

def FoundBy (live : String → Liveness) (t : Member) : Prop :=
  ∀ host a, .probed host a ∈ t.events → a.check.liveness = live host

def answered (t : Member) (r : Request) (stop : Stop) (ahead : Thunk (List Stop)) (a : Answer) :
    Member :=
  { t with
    events := t.events ++ (Call.answered r stop ahead a).1
    call := (Call.answered r stop ahead a).2 }

end Member

/-- Shared state with the selections on it, in the order of their starts. -/
structure Interleaving where
  shared : Shared
  members : List Member := []

namespace Interleaving

inductive Step (s : Interleaving) : Interleaving → Prop where
  | start (metered : Bool) (r : Request) :
    Step s
      { shared := (s.shared.begin metered r).2.2
        members := s.members ++
          [⟨r, metered, (s.shared.begin metered r).1, (s.shared.begin metered r).2.1⟩] }
  | reply {before after : List Member} {t : Member} {r : Request} {stop : Stop}
    {ahead : Thunk (List Stop)} (ht : s.members = before ++ t :: after)
    (hc : t.call = .pending r stop ahead) (a : Answer) :
    Step s
      { shared := s.shared.record t.metered (Call.answered r stop ahead a).1
        members := before ++ t.answered r stop ahead a :: after }

def Reachable (s₀ : Shared) : Interleaving → Prop :=
  Relation.ReflTransGen Step { shared := s₀ }

def on (s : Interleaving) (profile : String) : List Member :=
  s.members.filter (·.request.profile = profile)

def off (s : Interleaving) (profile : String) : List Member :=
  s.members.filter (·.request.profile ≠ profile)

end Interleaving

theorem Request.map_bare_proceed (r : Request) (ahead : List Stop) :
    (r.proceed ahead).1.map Event.bare = (r.proceed ahead).1 := by
  induction ahead with
  | nil => rfl
  | cons stop ahead ih =>
    rw [proceed]
    split
    · exact congrArg (.skipped stop.host :: ·) ih
    · rfl

namespace Call

def finish (live : String → Liveness) (call : Call) : List Event × Call :=
  Id.run (call.run fun _ stop => pure (some (Request.plainAnswer live stop.host)))

theorem finish_ended (live : String → Liveness) (result : Except NoLiveHost Selected) :
    finish live (.ended result) = ([], .ended result) := by
  simp [finish, run]

theorem finish_pending (live : String → Liveness) (r : Request) (stop : Stop)
    (ahead : Thunk (List Stop)) :
    finish live (.pending r stop ahead) =
      ((answered r stop ahead (Request.plainAnswer live stop.host)).1 ++
        (finish live (answered r stop ahead (Request.plainAnswer live stop.host)).2).1,
      (finish live (answered r stop ahead (Request.plainAnswer live stop.host)).2).2) := by
  simp [finish, run]

theorem probed_mem_answered (r : Request) (stop : Stop) (ahead : Thunk (List Stop)) (a : Answer) :
    .probed stop.host a ∈ (answered r stop ahead a).1 := by
  rw [answered]
  split <;> exact List.mem_cons_self

theorem answered_plainAnswer {live : String → Liveness} {r : Request} {stop : Stop}
    {ahead : Thunk (List Stop)} {a : Answer} (ha : a.check.liveness = live stop.host) :
    answered r stop ahead (Request.plainAnswer live stop.host) =
      ((answered r stop ahead a).1.map Event.bare, (answered r stop ahead a).2) := by
  cases hl : live stop.host
  all_goals
    rw [hl] at ha
    simp [answered, Request.plainAnswer, Event.bare, ha, hl, Liveness.isAlive,
      Request.map_bare_proceed]

end Call

theorem Request.fate_eq_finish (r : Request) (live : String → Liveness) (ahead : List Stop) :
    r.fate live ahead =
      ((r.proceed ahead).1 ++ ((r.proceed ahead).2.finish live).1,
        ((r.proceed ahead).2.finish live).2) := by
  simp [fate, walk, Call.finish]

namespace Member

/-- What becomes of a selection when its later probes find every host as it is. -/
def resumed (live : String → Liveness) (t : Member) : List Event × Call :=
  (t.events.map Event.bare ++ (t.call.finish live).1, (t.call.finish live).2)

variable {live : String → Liveness} {t : Member}

theorem resumed_start (r : Request) (metered : Bool) (v : UInt64) :
    resumed live ⟨r, metered, (r.start v).1, (r.start v).2⟩ = r.outcome live v := by
  rw [resumed, r.start_eq_proceed, r.map_bare_proceed, Request.outcome, r.fate_eq_finish]

theorem resumed_answered {r : Request} {stop : Stop} {ahead : Thunk (List Stop)}
    (hc : t.call = .pending r stop ahead) {a : Answer} (ha : a.check.liveness = live stop.host) :
    (t.answered r stop ahead a).resumed live = t.resumed live := by
  simp only [resumed, answered, hc, Call.finish_pending, Call.answered_plainAnswer ha,
    List.map_append, List.append_assoc]

theorem resumed_ended {result : Except NoLiveHost Selected} (hc : t.call = .ended result) :
    t.resumed live = (t.events.map Event.bare, t.call) := by
  rw [resumed, hc, Call.finish_ended, List.append_nil]

end Member

namespace Interleaving

/-- Every selection on the profile of a request is for that request, and its probes found every host
as it is. -/
def Uniform (s : Interleaving) (r : Request) (live : String → Liveness) : Prop :=
  ∀ t ∈ s.on r.profile, t.request = r ∧ t.FoundBy live

/-- What holds in every state. The selections on a profile have drawn the values of as many draws in
a row, in the order of their starts; their events are counted in some order; and where they are
uniform, each is on its way to the outcome of the value that it drew. -/
structure Follows (s₀ : Shared) (s : Interleaving) : Prop where
  cursor : ∀ q, s.shared.cursors.peek q = (s₀.cursors.drawMany q (s.on q).length).2.peek q
  tally : ∃ events : List Event, s.shared.tally = events.foldl Tally.observe s₀.tally ∧
    events.Perm (s.members.flatMap Member.counted)
  outcomes : ∀ r live, s.Uniform r live → (s.on r.profile).map (Member.resumed live) =
    (s₀.cursors.drawMany r.profile (s.on r.profile).length).1.map (r.outcome live)

theorem follows_nil (s₀ : Shared) : Follows s₀ { shared := s₀ } where
  cursor _ := rfl
  tally := ⟨[], rfl, .nil⟩
  outcomes _ _ _ := rfl

theorem on_append (s : Interleaving) (shared : Shared) (t : Member) (q : String) :
    on { shared, members := s.members ++ [t] } q =
      if t.request.profile = q then s.on q ++ [t] else s.on q := by
  by_cases hq : t.request.profile = q <;> simp [on, hq]

theorem tally_record (s : Shared) (metered : Bool) (events : List Event) :
    (s.record metered events).tally =
      (if metered then events else []).foldl Tally.observe s.tally := by
  cases metered <;> rfl

theorem Follows.start {s₀ : Shared} {s : Interleaving} (h : Follows s₀ s) (metered : Bool)
    (r : Request) :
    Follows s₀
      { shared := (s.shared.begin metered r).2.2
        members := s.members ++
          [⟨r, metered, (s.shared.begin metered r).1, (s.shared.begin metered r).2.1⟩] } := by
  obtain ⟨events, htally, hperm⟩ := h.tally
  have hvalue : (s₀.cursors.drawMany r.profile (s.on r.profile).length).2.value r.profile =
      s.shared.cursors.value r.profile := by
    rw [Cursors.value, Cursors.value, h.cursor]
  refine ⟨fun q => ?_, ⟨events ++ if metered then (s.shared.begin metered r).1 else [], ?_, ?_⟩,
    fun r' live hu => ?_⟩
  · rw [on_append]
    simp only [Shared.begin, Shared.cursors_record, Cursors.peek_draw]
    by_cases hq : r.profile = q
    · subst hq
      simp [Cursors.drawMany_succ, Cursors.peek_draw, hvalue]
    · simp [hq, h.cursor]
  · simp only [Shared.begin, tally_record, List.foldl_append, htally]
  · simpa [Member.counted] using hperm.append_right _
  · simp only [Uniform, on_append] at hu ⊢
    by_cases hq : r.profile = r'.profile
    · rw [if_pos hq] at hu ⊢
      obtain rfl : r = r' := (hu _ (List.mem_append_right _ List.mem_cons_self)).1
      have ho := h.outcomes r live fun t ht => hu t (List.mem_append_left _ ht)
      rw [List.length_append, List.length_singleton, Cursors.drawMany_succ, List.map_append,
        List.map_append, ho, hvalue]
      exact congrArg (_ ++ [·]) (Member.resumed_start r metered _)
    · rw [if_neg hq] at hu ⊢
      exact h.outcomes r' live hu

section Replaced

variable {s : Interleaving} {before after : List Member} {t u : Member}

theorem map_on_replaced (ht : s.members = before ++ t :: after)
    (hr : u.request = t.request) (shared : Shared) (profile : String) {β : Type} (f : Member → β)
    (hf : t.request.profile = profile → f u = f t) :
    (on { shared, members := before ++ u :: after } profile).map f = (s.on profile).map f := by
  by_cases hq : t.request.profile = profile
  · simp [on, ht, hr, hq, hf hq]
  · simp [on, ht, hr, hq]

theorem mem_on_replaced (shared : Shared) {profile : String} (hp : u.request.profile = profile) :
    u ∈ on { shared, members := before ++ u :: after } profile := by
  simp [on, hp]

theorem mem_on_of_ne (ht : s.members = before ++ t :: after) (shared : Shared) {profile : String}
    {v : Member} (hv : v ∈ s.on profile) (hne : v ≠ t) :
    v ∈ on { shared, members := before ++ u :: after } profile := by
  simp only [on, ht, List.mem_filter, List.mem_append, List.mem_cons] at hv ⊢
  grind

end Replaced

theorem Uniform.of_answered {s : Interleaving} {before after : List Member} {t : Member}
    {r₀ r : Request} {live : String → Liveness} {stop : Stop} {ahead : Thunk (List Stop)}
    {a : Answer} {shared : Shared} (ht : s.members = before ++ t :: after)
    (hu : Uniform { shared, members := before ++ t.answered r stop ahead a :: after } r₀ live) :
    s.Uniform r₀ live ∧ (t.request.profile = r₀.profile → a.check.liveness = live stop.host) := by
  refine ⟨fun u hmem => ?_, fun hp => ?_⟩
  · by_cases hne : u = t
    · subst hne
      have hp : u.request.profile = r₀.profile := by
        simpa using (List.mem_filter.1 hmem).2
      obtain ⟨hr, hfound⟩ := hu _ (mem_on_replaced shared hp)
      exact ⟨hr, fun host b hb => hfound host b (List.mem_append_left _ hb)⟩
    · exact hu u (mem_on_of_ne ht shared hmem hne)
  · obtain ⟨-, hfound⟩ := hu _ (mem_on_replaced shared hp)
    exact hfound stop.host a (List.mem_append_right _ (Call.probed_mem_answered r stop ahead a))

theorem Follows.reply {s₀ : Shared} {s : Interleaving} (h : Follows s₀ s)
    {before after : List Member} {t : Member} {r : Request} {stop : Stop}
    {ahead : Thunk (List Stop)} (ht : s.members = before ++ t :: after)
    (hc : t.call = .pending r stop ahead) (a : Answer) :
    Follows s₀
      { shared := s.shared.record t.metered (Call.answered r stop ahead a).1
        members := before ++ t.answered r stop ahead a :: after } := by
  obtain ⟨events, htally, hperm⟩ := h.tally
  have hmap {β : Type} (profile : String) (f : Member → β) :=
    map_on_replaced ht (u := t.answered r stop ahead a) rfl
      (s.shared.record t.metered (Call.answered r stop ahead a).1) profile f
  have hlength (q : String) := congrArg List.length (hmap q (fun _ => ()) fun _ => rfl)
  simp only [List.length_map] at hlength
  refine ⟨fun q => ?_, ⟨events ++ if t.metered then (Call.answered r stop ahead a).1 else [], ?_,
    ?_⟩, fun r₀ live hu => ?_⟩
  · rw [Shared.cursors_record, h.cursor, hlength]
  · simp only [tally_record, List.foldl_append, htally]
  -- the member that took the step counts more events, and so does the tally
  · have hcounted : (t.answered r stop ahead a).counted =
        t.counted ++ if t.metered then (Call.answered r stop ahead a).1 else [] := by
      cases hm : t.metered <;> simp [Member.counted, Member.answered, hm]
    rw [List.perm_iff_count] at hperm ⊢
    intro e
    have he := hperm e
    simp only [ht, List.flatMap_append, List.flatMap_cons, hcounted, List.count_append] at he ⊢
    omega
  · obtain ⟨hs, ha⟩ := hu.of_answered ht
    rw [hlength, hmap, h.outcomes r₀ live hs]
    exact fun hp => Member.resumed_answered hc (ha hp)

theorem Reachable.follows {s₀ : Shared} {s : Interleaving} (h : Reachable s₀ s) : Follows s₀ s := by
  induction h with
  | refl => exact follows_nil s₀
  | tail _ hs ih =>
    cases hs with
    | start metered r => exact ih.start metered r
    | reply ht hc a => exact ih.reply ht hc a

theorem perm_on_off (s : Interleaving) (profile : String) :
    s.members.Perm (s.on profile ++ s.off profile) := by
  simpa [on, off] using (List.filter_append_perm (·.request.profile = profile) s.members).symm

theorem Reachable.outcomes_ended {s₀ : Shared} {s : Interleaving} (h : Reachable s₀ s) {r : Request}
    {live : String → Liveness} (hu : s.Uniform r live)
    (he : ∀ t ∈ s.on r.profile, ∃ result, t.call = .ended result) :
    (s.on r.profile).map (fun t => (t.events.map Event.bare, t.call)) =
      (s₀.cursors.drawMany r.profile (s.on r.profile).length).1.map (r.outcome live) := by
  rw [← h.follows.outcomes r live hu]
  apply List.map_congr_left
  intro t ht
  obtain ⟨result, hc⟩ := he t ht
  exact (Member.resumed_ended hc).symm

theorem counted_on {s : Interleaving} {profile : String} {metered : Bool}
    (hm : ∀ t ∈ s.on profile, t.metered = metered) :
    (s.on profile).flatMap Member.counted =
      if metered then (s.on profile).flatMap Member.events else [] := by
  cases metered with
  | true =>
    have hc : (s.on profile).map Member.counted = (s.on profile).map Member.events :=
      List.map_congr_left fun t ht => by simp [Member.counted, hm t ht]
    rw [List.flatMap_def, hc, ← List.flatMap_def, if_pos rfl]
  | false =>
    exact List.flatMap_eq_nil_iff.2 fun t ht => by simp [Member.counted, hm t ht]

/-- Selections for one request that were made side by side, and among any others on other profiles,
have the results of as many selections in a row, and they leave the same cursor and, but for the
latencies, the same tally, to which the others add theirs. -/
theorem Reachable.eq_in_a_row {s₀ : Shared} {s : Interleaving} (h : Reachable s₀ s) {r : Request}
    {metered : Bool} {live : String → Liveness} (hu : s.Uniform r live)
    (hm : ∀ t ∈ s.on r.profile, t.metered = metered)
    (he : ∀ t ∈ s.on r.profile, ∃ result, t.call = .ended result)
    {σ : Type} {probe : Request → Stop → StateM σ Answer} (hp : FindsBy live (probe r)) (w : σ) :
    ∃ calls after w',
      (s₀.selectTimes metered (fun r stop => some <$> probe r stop) r (s.on r.profile).length).run w
        = pure ((calls, after), w') ∧
      (s.on r.profile).map Member.call = calls ∧
      s.shared.cursors.peek r.profile = after.cursors.peek r.profile ∧
      s.shared.tally.withoutLatency =
        (((s.off r.profile).flatMap Member.counted).foldl Tally.observe after.tally).withoutLatency
      := by
  obtain ⟨events, w', hrun, hbare⟩ :=
    s₀.selectTimes_eq_outcomes hp metered (s.on r.profile).length w
  obtain ⟨observed, htally, hperm⟩ := h.follows.tally
  have houtcomes := h.outcomes_ended hu he
  refine ⟨_, _, w', hrun, ?_, ?_, ?_⟩
  · simpa [Function.comp_def] using congrArg (List.map Prod.snd) houtcomes
  · rw [Shared.cursors_record]
    exact h.follows.cursor r.profile
  · have hevents : ((s.on r.profile).flatMap Member.counted).map Event.bare =
        (if metered then events else []).map Event.bare := by
      have hfirst : ((s.on r.profile).flatMap Member.events).map Event.bare =
          events.map Event.bare := by
        rw [hbare, List.map_flatMap]
        simpa [List.flatMap_map] using congrArg (List.flatMap Prod.fst) houtcomes
      rw [counted_on hm]
      cases metered
      · rfl
      · exact hfirst
    have hall : (observed.map Event.bare).Perm (((if metered then events else []) ++
        (s.off r.profile).flatMap Member.counted).map Event.bare) := by
      rw [List.map_append, ← hevents, ← List.map_append, ← List.flatMap_append]
      exact (hperm.trans ((s.perm_on_off r.profile).flatMap_right _)).map _
    rw [htally, tally_record, ← List.foldl_append, Tally.withoutLatency_foldl_observe,
      Tally.withoutLatency_foldl_observe]
    exact Tally.foldl_observe_perm hall _

/-- Two selections on a profile, and between their starts one on another. The one that starts first
finds the first host dead, and ends last. -/
theorem reachable_crossed : ∃ s t t' u, Reachable {} s ∧ s.members = [t, u, t'] ∧
    u.request.profile = "q" ∧
    t = ⟨{ config := .twoHosts, profile := "p" }, true,
      [.probed "a" { check := { liveness := .dead } },
        .probed "b" { check := { liveness := .alive }, latency := 7 }, .selected "p" ⟨"b", 1⟩],
      .ended (.ok ⟨"b", 1⟩)⟩ ∧
    t' = ⟨{ config := .twoHosts, profile := "p" }, true,
      [.probed "b" { check := { liveness := .alive }, latency := 5 }, .selected "p" ⟨"b", 1⟩],
      .ended (.ok ⟨"b", 1⟩)⟩ := by
  let r : Request := { config := .twoHosts, profile := "p" }
  let r' : Request := { config := .twoHosts, profile := "q" }
  let s₂ : Shared := ((Shared.mk .empty {}).begin true r).2.2.begin true r' |>.2.2
  have hv : s₂.cursors.value "p" = 1 := by
    simp [s₂, Shared.begin, Shared.record, Cursors.value, Cursors.peek_draw, r, r']
  have hstart : (s₂.begin true r).1 = [] ∧
      (s₂.begin true r).2.1 = .pending r ⟨1, "b"⟩ (Thunk.mk fun _ => [⟨0, "a"⟩]) := by
    change (r.start (s₂.cursors.value "p")).1 = _ ∧ (r.start (s₂.cursors.value "p")).2 = _
    rw [hv]
    exact ⟨rfl, rfl⟩
  have h₁ : Reachable {} _ := .tail .refl (.start true r)
  have h₂ := h₁.tail (.start true r')
  have h₃ := h₂.tail (.start true r)
  have h₄ := h₃.tail (.reply (show _ = [_, _] ++ _ :: [] from rfl) hstart.2
    { check := { liveness := .alive }, latency := 5 })
  have h₅ := h₄.tail (.reply (show _ = [] ++ _ :: [_, _] from rfl) rfl
    { check := { liveness := .dead } })
  have h₆ := h₅.tail (.reply (show _ = [] ++ _ :: [_, _] from rfl) rfl
    { check := { liveness := .alive }, latency := 7 })
  refine ⟨_, _, _, _, h₆, rfl, rfl, rfl, ?_⟩
  exact congrArg (Member.mk r true · _) (congrArg (· ++ _) hstart.1)

/-- Whichever selection comes to it first, the live host is returned twice. -/
theorem eq_in_a_row_crossed :
    let r : Request := { config := .twoHosts, profile := "p" }
    let live (host : String) : Liveness := if host = "b" then .alive else .dead
    let probe (_ : Request) (stop : Stop) : StateM Unit Answer :=
      pure (Request.plainAnswer live stop.host)
    ∃ s, Reachable {} s ∧ s.Uniform r live ∧ (∀ t ∈ s.on r.profile, t.metered = true) ∧
      (∀ t ∈ s.on r.profile, ∃ result, t.call = .ended result) ∧ FindsBy live (probe r) ∧
      (s.off r.profile).length = 1 ∧
      ∃ after w', (Shared.selectTimes {} true (fun r stop => some <$> probe r stop) r 2).run () =
          pure (([.ended (.ok ⟨"b", 1⟩), .ended (.ok ⟨"b", 1⟩)], after), w') ∧
        s.shared.cursors.peek "p" = after.cursors.peek "p" ∧
        s.shared.tally.withoutLatency = (((s.off "p").flatMap Member.counted).foldl Tally.observe
          after.tally).withoutLatency := by
  intro r live probe
  obtain ⟨s, t, t', u, hs, hmembers, hother, ht, ht'⟩ := reachable_crossed
  have hon : s.on "p" = [t, t'] := by simp [on, hmembers, hother, ht, ht']
  have hoff : (s.off "p").length = 1 := by simp [off, hmembers, hother, ht, ht']
  have hu : s.Uniform r live := by
    simp only [Uniform, Member.FoundBy, r, hon, ht, ht']
    grind
  have hm : ∀ t ∈ s.on r.profile, t.metered = true := by simp [r, hon, ht, ht']
  have he : ∀ t ∈ s.on r.profile, ∃ result, t.call = .ended result := by simp [r, hon, ht, ht']
  have hp : FindsBy live (probe r) := Request.findsBy_plainAnswer live
  obtain ⟨calls, after, w', hrun, hcalls, hcursor, htally⟩ := hs.eq_in_a_row hu hm he hp ()
  have hcalls : calls = [.ended (.ok ⟨"b", 1⟩), .ended (.ok ⟨"b", 1⟩)] := by
    simp [← hcalls, r, hon, ht, ht']
  refine ⟨s, hs, hu, hm, he, hp, hoff, after, w', ?_, hcursor, htally⟩
  simp only [r, hon] at hrun
  rw [← hcalls]
  exact hrun

end Interleaving
end HostRotation
