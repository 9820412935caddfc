import HostRotation.Proofs.Config.Secrecy
import HostRotation.Proofs.Selection.Walk
import HostRotation.Selection.Series

namespace HostRotation

structure Ask where
  profile : String
  exclude : Option String := none
  metered : Bool := true
  deriving DecidableEq, Repr

namespace Request

def withKey (r : Request) (key : String) : Request :=
  { r with config := r.config.withKey key }

end Request

def Ask.request (a : Ask) (c : Config) : Request where
  config := c
  profile := a.profile
  exclude := a.exclude

section
variable {m : Type → Type} [Monad m]

/-- A probe as a selection uses it: it is told the method and the port that are set, the host and
the time that it may take. The configured probe is one of these (`Request.probe_eq_askedBy`). -/
def Request.askedBy (ask : CheckMethod → UInt16 → String → Timespan → m (Option Answer))
    (r : Request) (stop : Stop) : m (Option Answer) :=
  ask r.config.method r.config.port stop.host r.config.checkTime

/-- Makes selections one after the other, and gives the events and the result of each. -/
def Shared.selectEach (s : Shared) (probe : Request → Stop → m (Option Answer)) (c : Config) :
    List Ask → m (List (List Event × Option (Except NoLiveHost Selected)) × Shared)
  | [] => pure ([], s)
  | a :: asks => do
    let (events, call, s) ← s.select a.metered probe (a.request c)
    let (rest, s) ← s.selectEach probe c asks
    return ((events, call.result?) :: rest, s)

end

namespace Request

variable {m : Type → Type} [Monad m]

theorem probe_eq_askedBy (s : Surroundings m) :
    Request.probe s = askedBy fun method port host limit =>
      some <$> (Probe.ofMethod method port).answer s host limit :=
  rfl

variable (ask : CheckMethod → UInt16 → String → Timespan → m (Option Answer)) (r : Request)
  (key : String)

omit [Monad m] in
theorem askedBy_withKey (stop : Stop) : askedBy ask (r.withKey key) stop = askedBy ask r stop :=
  rfl

variable [LawfulMonad m]

theorem walk_withKey (ahead : List Stop) :
    (fun p => (p.1, p.2.result?)) <$> (r.withKey key).walk (askedBy ask) ahead =
      (fun p => (p.1, p.2.result?)) <$> r.walk (askedBy ask) ahead := by
  induction ahead with
  | nil =>
    rw [walk_nil, walk_nil]
    rfl
  | cons stop ahead ih =>
    have hcons (event : Event) :
        (fun p => (event :: p.1, p.2.result?)) <$> (r.withKey key).walk (askedBy ask) ahead =
          (fun p => (event :: p.1, p.2.result?)) <$> r.walk (askedBy ask) ahead := by
      have hmap := congrArg (fun x => (fun p => (event :: p.1, p.2)) <$> x) ih
      simpa only [Functor.map_map] using hmap
    cases hx : r.excludes stop.host with
    | true =>
      have hx' : (r.withKey key).excludes stop.host = true := hx
      rw [walk_cons_excluded _ _ hx, walk_cons_excluded _ _ hx', Functor.map_map, Functor.map_map]
      exact hcons _
    | false =>
      have hx' : (r.withKey key).excludes stop.host = false := hx
      rw [walk_cons_probed _ _ hx, walk_cons_probed _ _ hx', askedBy_withKey, map_bind, map_bind]
      congr 1
      funext answer
      cases answer with
      | none =>
        rw [map_pure, map_pure]
        rfl
      | some a =>
        cases hl : a.check.liveness.isAlive with
        | true =>
          simp only [hl, if_true, map_pure]
          rfl
        | false =>
          simp only [hl, Bool.false_eq_true, if_false, Functor.map_map]
          exact hcons _

end Request

namespace Shared

variable {m : Type → Type} [Monad m] [LawfulMonad m]
  (ask : CheckMethod → UInt16 → String → Timespan → m (Option Answer)) (key : String)

def selectResult {m : Type → Type} [Monad m] (s : Shared) (metered : Bool)
    (probe : Request → Stop → m (Option Answer)) (r : Request) :
    m (List Event × Option (Except NoLiveHost Selected) × Shared) :=
  (fun p => (p.1, p.2.1.result?, p.2.2)) <$> s.select metered probe r

theorem selectResult_withKey (s : Shared) (metered : Bool) (r : Request) :
    s.selectResult metered (Request.askedBy ask) (r.withKey key) =
      s.selectResult metered (Request.askedBy ask) r := by
  have hwalk := r.walk_withKey ask key (r.config.stops (s.cursors.value r.profile))
  have hmap := congrArg
    (fun x => (fun p => (p.1, p.2, (s.advance r.profile).record metered p.1)) <$> x) hwalk
  rw [selectResult, selectResult, select_eq_walk, select_eq_walk]
  simp only [Functor.map_map] at hmap ⊢
  exact hmap

theorem selectEach_cons (probe : Request → Stop → m (Option Answer)) (s : Shared) (c : Config)
    (a : Ask) (asks : List Ask) :
    s.selectEach probe c (a :: asks) = s.selectResult a.metered probe (a.request c) >>= fun p =>
      (fun rest => ((p.1, p.2.1) :: rest.1, rest.2)) <$> p.2.2.selectEach probe c asks := by
  simp [selectEach, selectResult]

theorem selectUntil_succ (probe : Request → Stop → m (Option Answer)) (s : Shared)
    (metered : Bool) (r : Request) (n : Nat) :
    s.selectUntil metered probe r (n + 1) = s.selectResult metered probe r >>= fun p =>
      match p.2.1 with
      | some (.ok x) =>
        (fun rest => rest.precededBy p.1 x) <$> p.2.2.selectUntil metered probe r n
      | some (.error e) => pure { shared := p.2.2, events := p.1, failure := some e }
      | none => pure { shared := p.2.2, events := p.1 } := by
  rw [selectUntil, selectResult, bind_map_left]
  congr 1
  funext ⟨events, call, s⟩
  cases call with
  | pending r stop ahead => rfl
  | ended result =>
    cases result with
    | error e => rfl
    | ok x => exact (map_eq_pure_bind _ _).symm

theorem selectEach_withKey (s : Shared) (c : Config) (asks : List Ask) :
    s.selectEach (Request.askedBy ask) (c.withKey key) asks =
      s.selectEach (Request.askedBy ask) c asks := by
  induction asks generalizing s with
  | nil => rfl
  | cons a asks ih =>
    have hselect := s.selectResult_withKey ask key a.metered (a.request c)
    rw [selectEach_cons, selectEach_cons]
    simp only [ih]
    exact congrArg (· >>= _) hselect

theorem selectUntil_withKey (s : Shared) (metered : Bool) (r : Request) (n : Nat) :
    s.selectUntil metered (Request.askedBy ask) (r.withKey key) n =
      s.selectUntil metered (Request.askedBy ask) r n := by
  induction n generalizing s with
  | zero => rfl
  | succ n ih =>
    rw [selectUntil_succ, selectUntil_succ, selectResult_withKey]
    simp only [ih]

end Shared
end HostRotation
