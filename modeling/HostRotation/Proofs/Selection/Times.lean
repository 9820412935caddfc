import HostRotation.Proofs.Selection.Secrecy
import HostRotation.Proofs.Tally.Commuting

namespace HostRotation

/-- From related states, two programs give related results and leave related states. -/
def Alike {σ α β : Type} (R : σ → σ → Prop) (V : α → β → Prop) (x : StateM σ α) (y : StateM σ β) :
    Prop :=
  ∀ w w', R w w' → ∃ a v b v', x.run w = pure (a, v) ∧ y.run w' = pure (b, v') ∧ V a b ∧ R v v'

namespace Alike

variable {σ α β γ δ : Type} {R : σ → σ → Prop} {V : α → β → Prop} {W : γ → δ → Prop}
  {x : StateM σ α} {y : StateM σ β}

protected theorem pure {a : α} {b : β} (h : V a b) : Alike R V (pure a) (pure b) :=
  fun w w' hw => ⟨a, w, b, w', rfl, rfl, h, hw⟩

protected theorem bind {f : α → StateM σ γ} {g : β → StateM σ δ} (h : Alike R V x y)
    (hfg : ∀ a b, V a b → Alike R W (f a) (g b)) : Alike R W (x >>= f) (y >>= g) := by
  intro w w' hw
  obtain ⟨a, v, b, v', hx, hy, hab, hv⟩ := h w w' hw
  obtain ⟨c, u, d, u', hf, hg, hcd, hu⟩ := hfg a b hab v v' hv
  refine ⟨c, u, d, u', ?_, ?_, hcd, hu⟩
  · rw [StateT.run_bind, hx, pure_bind, hf]
  · rw [StateT.run_bind, hy, pure_bind, hg]

protected theorem map {f : α → γ} {g : β → δ} (h : Alike R V x y)
    (hfg : ∀ a b, V a b → W (f a) (g b)) : Alike R W (f <$> x) (g <$> y) := by
  rw [map_eq_pure_bind, map_eq_pure_bind]
  exact h.bind fun a b hab => .pure (hfg a b hab)

end Alike

/-- Two probes are both without an answer, or they find the same. -/
def SameFinding (o o' : Option Answer) : Prop :=
  o.map Answer.check = o'.map Answer.check

def Event.untimed : Event → Event
  | .probed host a => .probed host { check := a.check }
  | e => e

theorem Event.bare_untimed (e : Event) : e.untimed.bare = e.bare := by
  cases e <;> rfl

theorem Event.entries_untimed (e : Event) : e.untimed.entries = e.entries := by
  cases e <;> rfl

def SameEvents (es es' : List Event) : Prop :=
  es.map Event.untimed = es'.map Event.untimed

theorem flatMap_entries_untimed (es : List Event) :
    (es.map Event.untimed).flatMap Event.entries = es.flatMap Event.entries := by
  rw [List.flatMap_map]
  congr 1
  funext e
  exact e.entries_untimed

theorem SameEvents.entries {es es' : List Event} (h : SameEvents es es') :
    es.flatMap Event.entries = es'.flatMap Event.entries := by
  rw [← flatMap_entries_untimed, ← flatMap_entries_untimed es', h]

theorem SameEvents.bare {es es' : List Event} (h : SameEvents es es') :
    es.map Event.bare = es'.map Event.bare := by
  have hbare (es : List Event) : (es.map Event.untimed).map Event.bare = es.map Event.bare := by
    rw [List.map_map]
    congr 1
    funext e
    exact e.bare_untimed
  rw [← hbare, ← hbare es', h]

theorem SameEvents.append {es es' fs fs' : List Event} (h : SameEvents es es')
    (h' : SameEvents fs fs') : SameEvents (es ++ fs) (es' ++ fs') := by
  rw [SameEvents, List.map_append, List.map_append, h, h']

structure Shared.SameButTimes (s s' : Shared) : Prop where
  cursors : s.cursors = s'.cursors
  tally : s.tally.withoutLatency = s'.tally.withoutLatency

theorem Shared.SameButTimes.record {s s' : Shared} (h : s.SameButTimes s') (metered : Bool)
    {es es' : List Event} (he : SameEvents es es') :
    (s.record metered es).SameButTimes (s'.record metered es') where
  cursors := by rw [cursors_record, cursors_record, h.cursors]
  tally := by
    cases metered with
    | false => exact h.tally
    | true =>
      simp only [Shared.record, if_true, Tally.withoutLatency_foldl_observe]
      rw [h.tally, he.bare]

theorem Shared.SameButTimes.advance {s s' : Shared} (h : s.SameButTimes s') (profile : String) :
    (s.advance profile).SameButTimes (s'.advance profile) where
  cursors := by rw [Shared.advance, Shared.advance, h.cursors]
  tally := h.tally

/-- Two sequences of selections that differ in times only. -/
def SameRounds (xs ys : List (List Event × Option (Except NoLiveHost Selected))) : Prop :=
  xs.map (fun x => (x.1.map Event.untimed, x.2)) = ys.map fun y => (y.1.map Event.untimed, y.2)

theorem SameRounds.cons {x y : List Event × Option (Except NoLiveHost Selected)}
    {xs ys : List (List Event × Option (Except NoLiveHost Selected))} (he : SameEvents x.1 y.1)
    (hr : x.2 = y.2) (h : SameRounds xs ys) : SameRounds (x :: xs) (y :: ys) := by
  have hx : (x.1.map Event.untimed, x.2) = (y.1.map Event.untimed, y.2) := by rw [he, hr]
  rw [SameRounds, List.map_cons, List.map_cons, h, hx]

theorem SameRounds.results {xs ys : List (List Event × Option (Except NoLiveHost Selected))}
    (h : SameRounds xs ys) : xs.map Prod.snd = ys.map Prod.snd := by
  have hmap := congrArg (List.map Prod.snd) h
  simpa only [List.map_map, Function.comp_def] using hmap

theorem SameRounds.entries {xs ys : List (List Event × Option (Except NoLiveHost Selected))}
    (h : SameRounds xs ys) :
    xs.map (·.1.flatMap Event.entries) = ys.map (·.1.flatMap Event.entries) := by
  have hentries (xs : List (List Event × Option (Except NoLiveHost Selected))) :
      (xs.map fun x => (x.1.map Event.untimed, x.2)).map (·.1.flatMap Event.entries) =
        xs.map (·.1.flatMap Event.entries) := by
    simp only [List.map_map, Function.comp_def, flatMap_entries_untimed]
  rw [← hentries, ← hentries ys, h]

structure Series.SameButTimes (x y : Series) : Prop where
  shared : x.shared.SameButTimes y.shared
  events : SameEvents x.events y.events
  selected : x.selected = y.selected
  failure : x.failure = y.failure

section
variable {σ : Type} {R : σ → σ → Prop} {probe : Request → Stop → StateM σ (Option Answer)}
  {r : Request}

theorem Request.walk_alike (hp : ∀ stop, Alike R SameFinding (probe r stop) (probe r stop))
    (ahead : List Stop) :
    Alike R (fun x y => SameEvents x.1 y.1 ∧ x.2 = y.2) (r.walk probe ahead)
      (r.walk probe ahead) := by
  induction ahead with
  | nil =>
    rw [walk_nil]
    exact .pure ⟨rfl, rfl⟩
  | cons stop ahead ih =>
    cases hx : r.excludes stop.host with
    | true =>
      rw [walk_cons_excluded _ _ hx]
      refine ih.map ?_
      rintro x y ⟨he, hc⟩
      have hskipped : SameEvents [.skipped stop.host] [.skipped stop.host] := rfl
      exact ⟨hskipped.append he, hc⟩
    | false =>
      rw [walk_cons_probed _ _ hx]
      refine (hp stop).bind ?_
      intro o o' ho
      cases o with
      | none =>
        cases o' with
        | none => exact .pure ⟨rfl, rfl⟩
        | some a' => cases ho
      | some a =>
        cases o' with
        | none => cases ho
        | some a' =>
          have hcheck : a.check = a'.check := Option.some.inj ho
          have hevent : SameEvents [.probed stop.host a] [.probed stop.host a'] := by
            simp only [SameEvents, List.map_cons, List.map_nil, Event.untimed, hcheck]
          simp only [← hcheck]
          split
          · have hselected : SameEvents [.selected r.profile ⟨stop.host, stop.index⟩]
                [.selected r.profile ⟨stop.host, stop.index⟩] := rfl
            exact .pure ⟨hevent.append hselected, rfl⟩
          · refine ih.map ?_
            rintro x y ⟨he, hc⟩
            exact ⟨hevent.append he, hc⟩

namespace Shared

variable {s s' : Shared}

theorem selectResult_alike (hp : ∀ stop, Alike R SameFinding (probe r stop) (probe r stop))
    (h : s.SameButTimes s') (metered : Bool) :
    Alike R (fun x y => SameEvents x.1 y.1 ∧ x.2.1 = y.2.1 ∧ x.2.2.SameButTimes y.2.2)
      (s.selectResult metered probe r) (s'.selectResult metered probe r) := by
  have hvalue : s.cursors.value r.profile = s'.cursors.value r.profile := by rw [h.cursors]
  rw [selectResult, selectResult, select_eq_walk, select_eq_walk, Functor.map_map, Functor.map_map,
    hvalue]
  refine (Request.walk_alike hp _).map ?_
  rintro x y ⟨he, hc⟩
  exact ⟨he, congrArg Call.result? hc, (h.advance r.profile).record metered he⟩

theorem selectEach_alike {c : Config} (hp : ∀ (r : Request) (stop : Stop), r.config = c →
    Alike R SameFinding (probe r stop) (probe r stop)) (h : s.SameButTimes s') (asks : List Ask) :
    Alike R (fun x y => SameRounds x.1 y.1 ∧ x.2.SameButTimes y.2) (s.selectEach probe c asks)
      (s'.selectEach probe c asks) := by
  induction asks generalizing s s' with
  | nil => exact .pure ⟨rfl, h⟩
  | cons a asks ih =>
    rw [selectEach_cons, selectEach_cons]
    refine (selectResult_alike (fun stop => hp _ stop rfl) h a.metered).bind ?_
    rintro x y ⟨he, hresult, hshared⟩
    refine (ih hshared).map ?_
    rintro rest rest' ⟨hrest, hlast⟩
    exact ⟨SameRounds.cons he hresult hrest, hlast⟩

theorem selectUntil_alike (hp : ∀ stop, Alike R SameFinding (probe r stop) (probe r stop))
    (h : s.SameButTimes s') (metered : Bool) (n : Nat) :
    Alike R Series.SameButTimes (s.selectUntil metered probe r n)
      (s'.selectUntil metered probe r n) := by
  induction n generalizing s s' with
  | zero => exact .pure ⟨h, rfl, rfl, rfl⟩
  | succ n ih =>
    rw [selectUntil_succ, selectUntil_succ]
    refine (selectResult_alike hp h metered).bind ?_
    rintro x y ⟨he, hresult, hshared⟩
    rw [← hresult]
    split
    · refine (ih hshared).map ?_
      intro rest rest' hrest
      exact {
        shared := hrest.shared
        events := he.append hrest.events
        selected := congrArg (_ :: ·) hrest.selected
        failure := hrest.failure }
    · exact .pure ⟨hshared, he, rfl, rfl⟩
    · exact .pure ⟨hshared, he, rfl, rfl⟩

end Shared
end

/-- In related states the surroundings answer alike, but for the time that it is. -/
structure Surroundings.Steady {σ : Type} (s : Surroundings (StateM σ)) (R : σ → σ → Prop) :
    Prop where
  clock : Alike R (fun _ _ => True) s.clock s.clock
  connect : ∀ host port limit, Alike R Eq (s.connect host port limit) (s.connect host port limit)
  execute : ∀ program arguments limit,
    Alike R Eq (s.execute program arguments limit) (s.execute program arguments limit)

theorem Surroundings.Steady.probe {σ : Type} {s : Surroundings (StateM σ)} {R : σ → σ → Prop}
    (h : s.Steady R) (r : Request) (stop : Stop) :
    Alike R SameFinding (r.probe s stop) (r.probe s stop) := by
  have hcheck (p : Probe) (host : String) (limit : Timespan) :
      Alike R Eq (p.check s host limit) (p.check s host limit) := by
    cases p with
    | noop => exact .pure rfl
    | socket port =>
      refine (h.connect host port limit).bind ?_
      rintro a _ rfl
      exact .pure rfl
    | ping program =>
      refine (h.execute program _ _).bind ?_
      rintro a _ rfl
      exact .pure rfl
  refine Alike.map (V := fun a a' => a.check = a'.check) ?_ fun a a' ha => congrArg some ha
  refine h.clock.bind fun start start' _ => ?_
  refine (hcheck _ _ _).bind ?_
  rintro check _ rfl
  refine h.clock.bind fun finish finish' _ => ?_
  exact .pure rfl

def Snapshot.untimed (s : Snapshot) : Snapshot :=
  { s with uptime := 0, hosts := s.hosts.map fun _ m => { m with meanLatency := 0 } }

theorem Tally.untimed_snapshot {t t' : Tally} (h : t.withoutLatency = t'.withoutLatency)
    (uptime uptime' : UInt64) :
    (t.snapshot uptime).untimed = (t'.snapshot uptime').untimed := by
  have hhosts (t : Tally) : (t.snapshot 0).untimed.hosts =
      t.withoutLatency.hosts.map fun host x => { x.metrics host with meanLatency := 0 } := by
    apply Std.ExtTreeMap.ext_getElem?
    intro host
    simp only [snapshot, Snapshot.untimed, withoutLatency, Std.ExtTreeMap.getElem?_map]
    cases t.hosts[host]? <;> rfl
  have hsnapshot (t : Tally) (uptime : UInt64) : (t.snapshot uptime).untimed = {
      selections := t.withoutLatency.selections, failed := t.withoutLatency.failed
      probes := t.withoutLatency.probes
      hosts := t.withoutLatency.hosts.map fun host x =>
        { x.metrics host with meanLatency := 0 } } := by
    rw [← hhosts]
    rfl
  rw [hsnapshot, hsnapshot, h]

end HostRotation
