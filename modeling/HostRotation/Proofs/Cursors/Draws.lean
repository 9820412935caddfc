import Mathlib.Algebra.Group.Nat.Defs
import Mathlib.Data.List.Nodup
import HostRotation.Proofs.Cursors.Steps

namespace HostRotation
namespace SharedCursors

variable {s t u : SharedCursors} {ms : List Move} {m : Move}

@[simp] theorem drawnFrom_append (c : Nat) (ms ms' : List Move) :
    drawnFrom c (ms ++ ms') = drawnFrom c ms ++ drawnFrom c ms' :=
  List.filterMap_append

@[simp] theorem drawnOn_append (p : String) (ms ms' : List Move) :
    drawnOn p (ms ++ ms') = drawnOn p ms ++ drawnOn p ms' :=
  List.filterMap_append

@[simp] theorem drawers_append (ms ms' : List Move) :
    drawers (ms ++ ms') = drawers ms ++ drawers ms' :=
  List.filterMap_append

theorem drawnFrom_drew (c d : Nat) (p : String) (c' : Nat) (v : UInt64) :
    drawnFrom c [.drew d p c' v] = if c' = c then [v] else [] := by
  simp only [drawnFrom, List.filterMap_cons, List.filterMap_nil]
  split <;> simp_all

theorem drawnOn_drew (q : String) (d : Nat) (p : String) (c : Nat) (v : UInt64) :
    drawnOn q [.drew d p c v] = if p = q then [v] else [] := by
  simp only [drawnOn, List.filterMap_cons, List.filterMap_nil]
  split <;> simp_all

/-- Every counter that is in use was made. -/
structure Sound (s : SharedCursors) : Prop where
  installed : ∀ (p : String) (c : Nat), s.installed[p]? = some c → c < s.counters.length
  holding : ∀ (d : Nat) (p : String) (c : Nat),
    s.draws[d]? = some (.holding p c) → c < s.counters.length

namespace Sound

theorem set (h : Sound s) {e : Nat} {x : Draw} (hd : t.draws = s.draws.set e x)
    (hc : s.counters.length ≤ t.counters.length)
    (hx : ∀ p c, x = .holding p c → c < t.counters.length)
    (hi : ∀ (p : String) (c : Nat), t.installed[p]? = some c → c < t.counters.length) :
    Sound t where
  installed := hi
  holding := by
    intro d p c hh
    rw [hd] at hh
    rcases of_getElem?_set hh with hh | ⟨-, hh⟩
    · exact Nat.lt_of_lt_of_le (h.holding d p c hh) hc
    · exact hx p c hh.symm

theorem step (h : Sound s) (hm : Step s m t) : Sound t := by
  cases hm with
  | start p =>
    refine ⟨h.installed, ?_⟩
    intro d q c hd
    rcases of_getElem?_snoc hd with hd | hd
    · exact h.holding d q c hd
    · cases hd
  | lookUp hd hc =>
    refine h.set rfl (Nat.le_refl _) ?_ h.installed
    rintro _ _ ⟨rfl, rfl⟩
    exact h.installed _ _ hc
  | miss hd hc => exact h.set rfl (Nat.le_refl _) nofun h.installed
  | getMade hd hc =>
    refine h.set rfl (Nat.le_refl _) ?_ h.installed
    rintro _ _ ⟨rfl, rfl⟩
    exact h.installed _ _ hc
  | make hd hc =>
    have hlt : s.counters.length < (s.counters ++ [0]).length := by simp
    refine h.set rfl (Nat.le_of_lt hlt) ?_ ?_
    · rintro _ _ ⟨rfl, rfl⟩
      exact hlt
    · intro q c hq
      rw [Std.ExtTreeMap.getElem?_insert] at hq
      split at hq
      · cases hq
        exact hlt
      · exact Nat.lt_trans (h.installed q c hq) hlt
  | add hd hv =>
    refine h.set rfl ?_ nofun ?_
    · exact Nat.le_of_eq (List.length_set ..).symm
    · simpa using h.installed
  | clear => exact ⟨by simp, h.holding⟩

theorem exists_step (h : Sound s) {d : Nat} {x : Draw} (hx : s.draws[d]? = some x)
    (hne : 0 < x.remaining) :
    ∃ m t y, Step s m t ∧ t.draws[d]? = some y ∧ y.remaining < x.remaining := by
  have hlt := (List.getElem?_eq_some_iff.1 hx).1
  have hset (y : Draw) : (s.draws.set d y)[d]? = some y := List.getElem?_set_self hlt
  cases x with
  | started p =>
    cases hc : s.installed[p]? with
    | none => exact ⟨_, _, _, .miss hx hc, hset _, by simp [Draw.remaining]⟩
    | some c => exact ⟨_, _, _, .lookUp hx hc, hset _, by simp [Draw.remaining]⟩
  | unseen p =>
    cases hc : s.installed[p]? with
    | none => exact ⟨_, _, _, .make hx hc, hset _, by simp [Draw.remaining]⟩
    | some c => exact ⟨_, _, _, .getMade hx hc, hset _, by simp [Draw.remaining]⟩
  | holding p c =>
    have hv := List.getElem?_eq_getElem (h.holding d p c hx)
    exact ⟨_, _, _, .add hx hv, hset _, by simp [Draw.remaining]⟩
  | ended p c v => cases hne

end Sound

theorem Run.sound (h : Run s ms t) (hs : Sound s) : Sound t := by
  induction h with
  | nil => exact hs
  | snoc _ hm ih => exact ih.step hm

/-- The value that a counter had at first; a counter that is made later starts at zero. -/
def first (s : SharedCursors) (c : Nat) : UInt64 :=
  s.counters[c]?.getD 0

/-- The counters after a run, against what was drawn from them. -/
structure Counted (s : SharedCursors) (ms : List Move) (t : SharedCursors) : Prop where
  grown : s.counters.length ≤ t.counters.length
  unmade : ∀ c, t.counters.length ≤ c → drawnFrom c ms = []
  drawn : ∀ c, drawnFrom c ms = consecutive (s.first c) (drawnFrom c ms).length
  value : ∀ c v, t.counters[c]? = some v → v = s.first c + .ofNat (drawnFrom c ms).length

namespace Counted

theorem nil (s : SharedCursors) : Counted s [] s where
  grown := Nat.le_refl _
  unmade _ _ := rfl
  drawn _ := rfl
  value := by
    intro c v hv
    simp [first, hv, drawnFrom]

theorem same (h : Counted s ms t) (hu : u.counters = t.counters)
    (hm : ∀ c, drawnFrom c [m] = []) : Counted s (ms ++ [m]) u where
  grown := hu ▸ h.grown
  unmade := by
    intro c hc
    rw [drawnFrom_append, hm, List.append_nil]
    exact h.unmade c (hu ▸ hc)
  drawn := by
    intro c
    rw [drawnFrom_append, hm, List.append_nil]
    exact h.drawn c
  value := by
    intro c v hv
    rw [drawnFrom_append, hm, List.append_nil]
    exact h.value c v (hu ▸ hv)

theorem make (h : Counted s ms t) (hu : u.counters = t.counters ++ [0])
    (hm : ∀ c, drawnFrom c [m] = []) : Counted s (ms ++ [m]) u where
  grown := by
    have hg := h.grown
    simp [hu]
    omega
  unmade := by
    intro c hc
    rw [drawnFrom_append, hm, List.append_nil]
    apply h.unmade
    simp [hu] at hc
    omega
  drawn := by
    intro c
    rw [drawnFrom_append, hm, List.append_nil]
    exact h.drawn c
  value := by
    intro c v hv
    rw [drawnFrom_append, hm, List.append_nil]
    rw [hu, List.getElem?_append] at hv
    split at hv
    · exact h.value c v hv
    · next hc =>
      -- the new counter: nothing was drawn from its number so far
      have hc := Nat.le_of_not_lt hc
      have hfirst : s.first c = 0 := by
        rw [first, List.getElem?_eq_none (Nat.le_trans h.grown hc)]
        rfl
      rw [List.getElem?_singleton] at hv
      split at hv
      · rw [h.unmade c hc, hfirst, ← Option.some.inj hv]
        rfl
      · cases hv

theorem add (h : Counted s ms t) {d c : Nat} {p : String} {v : UInt64}
    (hv : t.counters[c]? = some v) (hu : u.counters = t.counters.set c (v + 1)) :
    Counted s (ms ++ [.drew d p c v]) u where
  grown := by simpa [hu] using h.grown
  unmade := by
    intro c' hc'
    have hc : c < t.counters.length := (List.getElem?_eq_some_iff.1 hv).1
    rw [hu, List.length_set] at hc'
    rw [drawnFrom_append, drawnFrom_drew, if_neg (by omega), List.append_nil]
    exact h.unmade c' hc'
  drawn := by
    intro c'
    rw [drawnFrom_append, drawnFrom_drew]
    split
    · next hc =>
      subst c'
      rw [List.length_append, List.length_singleton, consecutive_succ, ← h.drawn c,
        ← h.value c v hv]
    · rw [List.append_nil]
      exact h.drawn c'
  value := by
    intro c' v' hv'
    rw [hu, List.getElem?_set] at hv'
    rw [drawnFrom_append, drawnFrom_drew]
    split at hv'
    · next hc =>
      subst c'
      rw [if_pos (List.getElem?_eq_some_iff.1 hv).1] at hv'
      obtain rfl := Option.some.inj hv'
      rw [if_pos rfl, List.length_append, List.length_singleton, UInt64.ofNat_add,
        ← UInt64.add_assoc, ← h.value c v hv]
      rfl
    · next hc =>
      rw [if_neg hc, List.append_nil]
      exact h.value c' v' hv'

theorem step (h : Counted s ms t) (hm : Step t m u) : Counted s (ms ++ [m]) u := by
  cases hm with
  | start p => exact h.same rfl fun _ => rfl
  | lookUp hd hc => exact h.same rfl fun _ => rfl
  | miss hd hc => exact h.same rfl fun _ => rfl
  | getMade hd hc => exact h.same rfl fun _ => rfl
  | make hd hc => exact h.make rfl fun _ => rfl
  | add hd hv => exact h.add hv rfl
  | clear => exact h.same rfl fun _ => rfl

end Counted

theorem Run.counted (h : Run s ms t) : Counted s ms t := by
  induction h with
  | nil => exact .nil s
  | snoc _ hm ih => exact ih.step hm

theorem nodup_consecutive (first : UInt64) {n : Nat} (hn : n ≤ 2 ^ 64) :
    (consecutive first n).Nodup := by
  apply List.Nodup.map_on _ List.nodup_range
  intro i hi j hj he
  have hi := List.mem_range.1 hi
  have hj := List.mem_range.1 hj
  have hnat := congrArg UInt64.toNat ((UInt64.add_right_inj first).1 he)
  rwa [UInt64.toNat_ofNat_of_lt' (Nat.lt_of_lt_of_le hi hn),
    UInt64.toNat_ofNat_of_lt' (Nat.lt_of_lt_of_le hj hn)] at hnat

/-- The draws after a run, against the moves of the run. -/
structure Tracked (s : SharedCursors) (ms : List Move) (t : SharedCursors) : Prop where
  drew : ∀ d p c v, .drew d p c v ∈ ms → t.draws[d]? = some (.ended p c v)
  ended : ∀ d p c v, t.draws[d]? = some (.ended p c v) →
    .drew d p c v ∈ ms ∨ s.draws[d]? = some (.ended p c v)
  once : (drawers ms).Nodup

theorem mem_drawers {d : Nat} : d ∈ drawers ms ↔ ∃ p c v, .drew d p c v ∈ ms := by
  simp only [drawers, List.mem_filterMap]
  constructor
  · rintro ⟨m, hm, hd⟩
    cases m <;> simp_all
    exact ⟨_, _, _, hm⟩
  · rintro ⟨p, c, v, hm⟩
    exact ⟨_, hm, rfl⟩

namespace Tracked

theorem nil (s : SharedCursors) : Tracked s [] s where
  drew := nofun
  ended _ _ _ _ h := .inr h
  once := List.nodup_nil

theorem same (h : Tracked s ms t) (hm : drawers [m] = [])
    (hu : ∀ (d : Nat) p c v,
      u.draws[d]? = some (Draw.ended p c v) ↔ t.draws[d]? = some (Draw.ended p c v)) :
    Tracked s (ms ++ [m]) u where
  drew := by
    intro d p c v hd
    rcases List.mem_append.1 hd with hd | hd
    · exact (hu d p c v).2 (h.drew d p c v hd)
    · have hmem : d ∈ drawers [m] := mem_drawers.2 ⟨p, c, v, hd⟩
      rw [hm] at hmem
      cases hmem
  ended := by
    intro d p c v hd
    rcases h.ended d p c v ((hu d p c v).1 hd) with hd | hd
    · exact .inl (List.mem_append_left _ hd)
    · exact .inr hd
  once := by
    rw [drawers_append, hm, List.append_nil]
    exact h.once

theorem add (h : Tracked s ms t) {d c : Nat} {p : String} {v : UInt64}
    (hd : t.draws[d]? = some (.holding p c)) (hu : u.draws = t.draws.set d (.ended p c v)) :
    Tracked s (ms ++ [.drew d p c v]) u := by
  have hlt : d < t.draws.length := (List.getElem?_eq_some_iff.1 hd).1
  have hnew : u.draws[d]? = some (.ended p c v) := by
    rw [hu, List.getElem?_set_self hlt]
  have hold (e : Nat) (he : d ≠ e) : u.draws[e]? = t.draws[e]? := by
    rw [hu, List.getElem?_set_ne he]
  have hfresh (e : Nat) (q : String) (c' : Nat) (v' : UInt64) (hm : .drew e q c' v' ∈ ms) :
      d ≠ e := by
    rintro rfl
    have hended := h.drew d q c' v' hm
    rw [hd] at hended
    cases hended
  refine ⟨?_, ?_, ?_⟩
  · intro e q c' v' hm
    rcases List.mem_append.1 hm with hm | hm
    · rw [hold e (hfresh e q c' v' hm)]
      exact h.drew e q c' v' hm
    · obtain ⟨rfl, rfl, rfl, rfl⟩ : e = d ∧ q = p ∧ c' = c ∧ v' = v := by simpa using hm
      exact hnew
  · intro e q c' v' he
    by_cases hde : d = e
    · subst e
      rw [hnew] at he
      cases he
      exact .inl (List.mem_append_right _ (List.mem_singleton.2 rfl))
    · rw [hold e hde] at he
      rcases h.ended e q c' v' he with hm | hm
      · exact .inl (List.mem_append_left _ hm)
      · exact .inr hm
  · rw [drawers_append]
    apply List.nodup_append.2 ⟨h.once, List.nodup_singleton d, ?_⟩
    intro e he e' he'
    obtain rfl := List.mem_singleton.1 he'
    obtain ⟨q, c', v', hm⟩ := mem_drawers.1 he
    exact (hfresh e q c' v' hm).symm

end Tracked

theorem ended_set_iff {draws : List Draw} {e : Nat} {x y : Draw} (he : draws[e]? = some x)
    (hx : ∀ p c v, x ≠ .ended p c v) (hy : ∀ p c v, y ≠ .ended p c v) (d : Nat) (p : String)
    (c : Nat) (v : UInt64) :
    (draws.set e y)[d]? = some (.ended p c v) ↔ draws[d]? = some (.ended p c v) := by
  by_cases hed : e = d
  · subst d
    rw [List.getElem?_set_self (List.getElem?_eq_some_iff.1 he).1, he]
    simp [hx, hy]
  · rw [List.getElem?_set_ne hed]

theorem Tracked.step (h : Tracked s ms t) (hm : Step t m u) : Tracked s (ms ++ [m]) u := by
  cases hm with
  | start p =>
    apply h.same rfl
    intro d q c v
    rw [List.getElem?_append]
    split
    · rfl
    · next hd =>
      rw [List.getElem?_eq_none (Nat.le_of_not_lt hd), List.getElem?_singleton]
      split <;> simp
  | lookUp hd hc => exact h.same rfl (ended_set_iff hd nofun nofun)
  | miss hd hc => exact h.same rfl (ended_set_iff hd nofun nofun)
  | getMade hd hc => exact h.same rfl (ended_set_iff hd nofun nofun)
  | make hd hc => exact h.same rfl (ended_set_iff hd nofun nofun)
  | add hd hv => exact h.add hd rfl
  | clear => exact h.same rfl fun _ _ _ _ => Iff.rfl

theorem Run.tracked (h : Run s ms t) : Tracked s ms t := by
  induction h with
  | nil => exact .nil s
  | snoc _ hm ih => exact ih.step hm

end SharedCursors
end HostRotation
