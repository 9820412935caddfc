import HostRotation.Proofs.Cursors.Draws

namespace HostRotation
namespace SharedCursors

variable {s t u : SharedCursors} {ms : List Move} {m : Move}

/-- While nothing is cleared, each profile that was used has a counter of its own. -/
structure Owned (s : SharedCursors) (ms : List Move) (t : SharedCursors) : Prop where
  distinct : ∀ (p q : String) (c : Nat), t.installed[p]? = some c → t.installed[q]? = some c → p = q
  holding : ∀ (d : Nat) (p : String) (c : Nat),
    t.draws[d]? = some (.holding p c) → t.installed[p]? = some c
  drawn : ∀ (p : String) (c : Nat), t.installed[p]? = some c → drawnOn p ms = drawnFrom c ms
  first : ∀ (p : String) (c : Nat), t.installed[p]? = some c → s.first c = (s.peek p).getD 0
  unused : ∀ p : String, t.installed[p]? = none → drawnOn p ms = [] ∧ s.peek p = none

namespace Owned

theorem same (h : Owned s ms t) (hi : u.installed = t.installed)
    (hd : ∀ (d : Nat) (p : String) (c : Nat),
      u.draws[d]? = some (.holding p c) → t.installed[p]? = some c)
    (hon : ∀ p, drawnOn p [m] = []) (hfrom : ∀ c, drawnFrom c [m] = []) :
    Owned s (ms ++ [m]) u where
  distinct := by simpa [hi] using h.distinct
  holding := by simpa [hi] using hd
  drawn := by simpa [hi, hon, hfrom] using h.drawn
  first := by simpa [hi] using h.first
  unused := by simpa [hi, hon] using h.unused

theorem holding_set (h : Owned s ms t) {e : Nat} {x : Draw}
    (hx : ∀ p c, x = .holding p c → t.installed[p]? = some c) (d : Nat) (p : String) (c : Nat)
    (hd : (t.draws.set e x)[d]? = some (.holding p c)) : t.installed[p]? = some c := by
  rcases of_getElem?_set hd with hd | ⟨-, hd⟩
  · exact h.holding d p c hd
  · exact hx p c hd.symm

theorem make (h : Owned s ms t) (hs : Sound t) (hcount : Counted s ms t) {d : Nat} {p : String}
    (hp : t.installed[p]? = none)
    (hi : u.installed = t.installed.insert p t.counters.length)
    (hd : u.draws = t.draws.set d (.holding p t.counters.length)) :
    Owned s (ms ++ [.made d p t.counters.length]) u := by
  have hget (q : String) : u.installed[q]? =
      if p = q then some t.counters.length else t.installed[q]? := by
    simp [hi, Std.ExtTreeMap.getElem?_insert]
  have hon (q : String) : drawnOn q (ms ++ [.made d p t.counters.length]) = drawnOn q ms := by
    simp [drawnOn]
  have hfrom (c : Nat) : drawnFrom c (ms ++ [.made d p t.counters.length]) = drawnFrom c ms := by
    simp [drawnFrom]
  have hlt {q : String} {c : Nat} (hq : t.installed[q]? = some c) : c ≠ t.counters.length :=
    Nat.ne_of_lt (hs.installed q c hq)
  -- a counter in use is the new one, from which nothing was drawn, or it was in use before
  refine ⟨?_, ?_, ?_, ?_, ?_⟩
  · intro q q' c hq hq'
    rw [hget] at hq hq'
    split at hq <;> split at hq'
    · simp_all
    · cases hq
      exact absurd rfl (hlt hq')
    · cases hq'
      exact absurd rfl (hlt hq)
    · exact h.distinct q q' c hq hq'
  · intro e q c he
    rw [hget]
    rw [hd] at he
    rcases of_getElem?_set he with he | ⟨-, he⟩
    · have hq := h.holding e q c he
      have hne : p ≠ q := by
        rintro rfl
        rw [hp] at hq
        cases hq
      rw [if_neg hne]
      exact hq
    · cases he
      rw [if_pos rfl]
  · intro q c hq
    rw [hget] at hq
    rw [hon, hfrom]
    split at hq
    · next hpq =>
      cases hq
      rw [← hpq, (h.unused p hp).1, hcount.unmade _ (Nat.le_refl _)]
    · exact h.drawn q c hq
  · intro q c hq
    rw [hget] at hq
    split at hq
    · next hpq =>
      cases hq
      rw [← hpq, (h.unused p hp).2, SharedCursors.first,
        List.getElem?_eq_none hcount.grown]
    · exact h.first q c hq
  · intro q hq
    rw [hget] at hq
    split at hq
    · cases hq
    · rw [hon]
      exact h.unused q hq

theorem add (h : Owned s ms t) {d c : Nat} {p : String} {v : UInt64}
    (hd : t.draws[d]? = some (.holding p c)) (hi : u.installed = t.installed)
    (hu : u.draws = t.draws.set d (.ended p c v)) :
    Owned s (ms ++ [.drew d p c v]) u where
  distinct := by simpa [hi] using h.distinct
  holding := by
    rw [hi, hu]
    exact h.holding_set nofun
  drawn := by
    intro q c' hq
    rw [hi] at hq
    have hp := h.holding d p c hd
    rw [drawnOn_append, drawnFrom_append, drawnOn_drew, drawnFrom_drew, h.drawn q c' hq]
    -- the profile is that of the counter, as no two profiles share one
    by_cases hpq : p = q
    · subst q
      obtain rfl := Option.some.inj (hp.symm.trans hq)
      rw [if_pos rfl, if_pos rfl]
    · have hne : c ≠ c' := by
        rintro rfl
        exact hpq (h.distinct p q c hp hq)
      rw [if_neg hpq, if_neg hne]
  first := by simpa [hi] using h.first
  unused := by
    intro q hq
    rw [hi] at hq
    have hne : p ≠ q := by
      rintro rfl
      rw [h.holding d p c hd] at hq
      cases hq
    rw [drawnOn_append, drawnOn_drew, if_neg hne, List.append_nil]
    exact h.unused q hq

theorem step (h : Owned s ms t) (hs : Sound t) (hcount : Counted s ms t) (hm : Step t m u)
    (hne : m ≠ .cleared) : Owned s (ms ++ [m]) u := by
  cases hm with
  | start p =>
    refine h.same rfl ?_ (fun _ => rfl) (fun _ => rfl)
    intro d q c hd
    rcases of_getElem?_snoc hd with hd | hd
    · exact h.holding d q c hd
    · cases hd
  | lookUp hd hc =>
    refine h.same rfl (h.holding_set ?_) (fun _ => rfl) (fun _ => rfl)
    rintro _ _ ⟨rfl, rfl⟩
    exact hc
  | miss hd hc => exact h.same rfl (h.holding_set nofun) (fun _ => rfl) (fun _ => rfl)
  | getMade hd hc =>
    refine h.same rfl (h.holding_set ?_) (fun _ => rfl) (fun _ => rfl)
    rintro _ _ ⟨rfl, rfl⟩
    exact hc
  | make hd hc => exact h.make hs hcount hc rfl rfl
  | add hd hv => exact h.add hd rfl rfl
  | clear => exact absurd rfl hne

end Owned

theorem getElem?_installed_ofCursors (c : Cursors) (p : String) :
    (ofCursors c).installed[p]? = (c.peek p).map fun _ => c.counters.keys.idxOf p := by
  simp [ofCursors, Cursors.peek, Std.ExtTreeMap.getElem?_map]

theorem peek_ofCursors (c : Cursors) (p : String) : (ofCursors c).peek p = c.peek p := by
  rw [peek, getElem?_installed_ofCursors]
  cases h : c.peek p with
  | none => rfl
  | some v =>
    have hkey := Table.getElem?_keys_idxOf h
    simp [ofCursors, hkey, Cursors.value, h]

theorem getElem?_keys_of_installed {c : Cursors} {p : String} {i : Nat}
    (h : (ofCursors c).installed[p]? = some i) : c.counters.keys[i]? = some p := by
  rw [getElem?_installed_ofCursors] at h
  obtain ⟨v, hv, rfl⟩ := Option.map_eq_some_iff.1 h
  exact Table.getElem?_keys_idxOf hv

theorem Sound.ofCursors (c : Cursors) : Sound (ofCursors c) where
  installed := by
    intro p i hi
    have hlt := (List.getElem?_eq_some_iff.1 (getElem?_keys_of_installed hi)).1
    simpa [SharedCursors.ofCursors] using hlt
  holding := nofun

theorem Owned.ofCursors (c : Cursors) : Owned (ofCursors c) [] (.ofCursors c) where
  distinct := by
    intro p q i hp hq
    have hkey := (getElem?_keys_of_installed hp).symm.trans (getElem?_keys_of_installed hq)
    exact Option.some.inj hkey
  holding := nofun
  drawn _ _ _ := rfl
  first := by
    intro p i hi
    rw [SharedCursors.first, peek, hi]
    rfl
  unused := by
    intro p hp
    rw [peek, hp]
    exact ⟨rfl, rfl⟩

theorem Run.owned {c : Cursors} (h : Run (ofCursors c) ms t) (hne : .cleared ∉ ms) :
    Owned (ofCursors c) ms t := by
  induction h with
  | nil => exact .ofCursors c
  | snoc h hm ih =>
    rw [List.mem_append, List.mem_singleton, not_or] at hne
    exact (ih hne.1).step (h.sound (.ofCursors c)) h.counted hm (Ne.symm hne.2)

theorem drawMany_eq (c : Cursors) (p : String) (n : Nat) :
    (c.drawMany p n).1 = consecutive (c.value p) n := by
  induction n generalizing c with
  | zero => rfl
  | succ n ih =>
    have hvalue : (c.draw p).2.value p = c.value p + 1 := by
      rw [Cursors.value, Cursors.peek_draw, if_pos rfl]
      rfl
    calc (c.drawMany p (n + 1)).1
      _ = c.value p :: ((c.draw p).2.drawMany p n).1 := rfl
      _ = c.value p :: consecutive (c.value p + 1) n := by rw [ih, hvalue]
      _ = consecutive (c.value p) (n + 1) := (consecutive_succ' _ _).symm

/-- After a clearing, no later draw gets at the counters from before. -/
structure Renewed (s : SharedCursors) (ms : List Move) (t : SharedCursors) : Prop where
  installed : ∀ (p : String) (c : Nat), t.installed[p]? = some c → s.counters.length ≤ c
  draws : s.draws.length ≤ t.draws.length
  held : ∀ (d : Nat) (x : Draw) (c : Nat), s.draws.length ≤ d → t.draws[d]? = some x →
    x.counter? = some c → s.counters.length ≤ c
  started : ∀ (d : Nat) (p : String), .started d p ∈ ms → s.draws.length ≤ d

namespace Renewed

theorem nil (hs : s.installed = ∅) : Renewed s [] s where
  installed := by simp [hs]
  draws := Nat.le_refl _
  held := by
    intro d x c hd hx
    rw [List.getElem?_eq_none hd] at hx
    cases hx
  started := nofun

theorem set (h : Renewed s ms t) {e : Nat} {x : Draw}
    (hx : ∀ c, s.draws.length ≤ e → x.counter? = some c → s.counters.length ≤ c)
    (hd : u.draws = t.draws.set e x)
    (hi : ∀ (p : String) (c : Nat), u.installed[p]? = some c → s.counters.length ≤ c)
    (hm : ∀ d p, m ≠ .started d p) : Renewed s (ms ++ [m]) u where
  installed := hi
  draws := by
    rw [hd, List.length_set]
    exact h.draws
  held := by
    intro d y c hle hy hc
    rw [hd] at hy
    rcases of_getElem?_set hy with hy | ⟨rfl, rfl⟩
    · exact h.held d y c hle hy hc
    · exact hx c hle hc
  started := by
    intro d p hmem
    rcases List.mem_append.1 hmem with hmem | hmem
    · exact h.started d p hmem
    · exact absurd (List.mem_singleton.1 hmem).symm (hm d p)

theorem step (h : Renewed s ms t) (hcount : Counted s ms t) (hm : Step t m u) :
    Renewed s (ms ++ [m]) u := by
  cases hm with
  | start p =>
    refine ⟨h.installed, ?_, ?_, ?_⟩
    · rw [List.length_append]
      exact Nat.le_add_right_of_le h.draws
    · intro d x c hle hx hc
      rcases of_getElem?_snoc hx with hx | rfl
      · exact h.held d x c hle hx hc
      · cases hc
    · intro d q hmem
      rcases List.mem_append.1 hmem with hmem | hmem
      · exact h.started d q hmem
      · cases List.mem_singleton.1 hmem
        exact h.draws
  | lookUp hd hc =>
    refine h.set ?_ rfl h.installed nofun
    rintro _ - ⟨⟩
    exact h.installed _ _ hc
  | miss hd hc =>
    refine h.set ?_ rfl h.installed nofun
    rintro _ - ⟨⟩
  | getMade hd hc =>
    refine h.set ?_ rfl h.installed nofun
    rintro _ - ⟨⟩
    exact h.installed _ _ hc
  | @make d p hd hc =>
    refine h.set ?_ rfl ?_ nofun
    · rintro _ - ⟨⟩
      exact hcount.grown
    · intro q c hq
      rw [Std.ExtTreeMap.getElem?_insert] at hq
      split at hq
      · cases hq
        exact hcount.grown
      · exact h.installed q c hq
  | @add d p c v hd hv =>
    refine h.set ?_ rfl h.installed nofun
    rintro _ hle ⟨⟩
    exact h.held d _ c hle hd rfl
  | clear =>
    refine ⟨by simp, h.draws, h.held, ?_⟩
    intro d q hmem
    rcases List.mem_append.1 hmem with hmem | hmem
    · exact h.started d q hmem
    · cases List.mem_singleton.1 hmem

end Renewed

theorem Run.renewed (h : Run s ms t) (hs : s.installed = ∅) : Renewed s ms t := by
  induction h with
  | nil => exact .nil hs
  | snoc h hm ih => exact ih.step h.counted hm

/-- A draw that starts after a clearing gets at no counter from before it. -/
theorem Run.length_counters_le_of_drew (h : Run s ms t) (hs : s.installed = ∅) {d c : Nat}
    {p q : String} {v : UInt64} (hstart : .started d p ∈ ms) (hdrew : .drew d q c v ∈ ms) :
    s.counters.length ≤ c :=
  have hr := h.renewed hs
  hr.held d _ c (hr.started d p hstart) (h.tracked.drew d q c v hdrew) rfl

theorem Run.drawnOn_eq {c : Cursors} (h : Run (ofCursors c) ms t) (hne : .cleared ∉ ms)
    (p : String) :
    drawnOn p ms = consecutive (c.value p) (drawnOn p ms).length ∧
      (t.peek p = some (c.value p + .ofNat (drawnOn p ms).length) ∨
        t.peek p = none ∧ c.peek p = none ∧ drawnOn p ms = []) := by
  have ho := h.owned hne
  have hc := h.counted
  cases hi : t.installed[p]? with
  | none =>
    obtain ⟨hon, hpeek⟩ := ho.unused p hi
    rw [peek_ofCursors] at hpeek
    refine ⟨by rw [hon]; rfl, .inr ⟨?_, hpeek, hon⟩⟩
    rw [peek, hi]
    rfl
  | some i =>
    have hfirst : (ofCursors c).first i = c.value p := by
      rw [ho.first p i hi, peek_ofCursors, Cursors.value]
    have hv := List.getElem?_eq_getElem ((h.sound (.ofCursors c)).installed p i hi)
    rw [ho.drawn p i hi]
    refine ⟨hfirst ▸ hc.drawn i, .inl ?_⟩
    rw [peek, hi, Option.bind_some, hv, hc.value i _ hv, hfirst]

/-- Draws from shared cursors, in any order of their steps and with clearings among them. Every
counter hands out consecutive values, one to each draw that uses it. Without a clearing, a profile's
draws hand out what draws one after the other would. A draw that starts after a clearing uses a
counter that was made later. No draw is ever stuck. -/
theorem draws_consecutive {c : Cursors} (h : Run (ofCursors c) ms t) :
    (∀ i, drawnFrom i ms = consecutive ((ofCursors c).first i) (drawnFrom i ms).length ∧
      ((drawnFrom i ms).length ≤ 2 ^ 64 → (drawnFrom i ms).Nodup)) ∧
    (drawers ms).Nodup ∧
    (∀ d p i v, .drew d p i v ∈ ms ↔ t.draws[d]? = some (.ended p i v)) ∧
    (.cleared ∉ ms → ∀ p,
      drawnOn p ms = consecutive (c.value p) (drawnOn p ms).length ∧
      drawnOn p ms = (c.drawMany p (drawnOn p ms).length).1 ∧
      (t.peek p = some (c.value p + .ofNat (drawnOn p ms).length) ∨
        t.peek p = none ∧ c.peek p = none ∧ drawnOn p ms = [])) ∧
    (∀ before after, ms = before ++ .cleared :: after →
      ∃ u, Run (ofCursors c) before u ∧ ∀ d p q i v, .started d p ∈ after →
        .drew d q i v ∈ after → u.counters[i]? = none) ∧
    ∀ (d : Nat) (x : Draw), t.draws[d]? = some x → 0 < x.remaining →
      ∃ m u y, Step t m u ∧ u.draws[d]? = some y ∧ y.remaining < x.remaining := by
  refine ⟨fun i => ?_, h.tracked.once, fun d p i v => ?_, fun hne p => ?_, ?_,
    fun _ _ => (h.sound (.ofCursors c)).exists_step⟩
  · have hi := h.counted.drawn i
    refine ⟨hi, fun hle => ?_⟩
    rw [hi]
    exact nodup_consecutive _ hle
  · refine ⟨h.tracked.drew d p i v, fun hd => ?_⟩
    rcases h.tracked.ended d p i v hd with hm | hm
    · exact hm
    · cases hm
  · obtain ⟨hon, hpeek⟩ := h.drawnOn_eq hne p
    refine ⟨hon, ?_, hpeek⟩
    rw [drawMany_eq]
    exact hon
  · rintro before after rfl
    obtain ⟨u, w, hu, hclear, hafter⟩ := h.split
    cases hclear
    refine ⟨u, hu, fun d p q i v hstart hdrew => ?_⟩
    exact List.getElem?_eq_none (hafter.length_counters_le_of_drew rfl hstart hdrew)

def race : List Move :=
  [.started 0 "p", .started 1 "p", .missed 0 "p", .missed 1 "p", .made 0 "p" 0, .found 1 "p" 0,
    .drew 1 "p" 0 0, .drew 0 "p" 0 1]

theorem run_race : ∃ t, Run (ofCursors .empty) race t := by
  have h₁ := (Run.nil (s := ofCursors .empty)).snoc (.start "p")
  have h₂ := h₁.snoc (.start "p")
  have h₃ := h₂.snoc (.miss (d := 0) rfl (by simp [ofCursors, Cursors.empty]))
  have h₄ := h₃.snoc (.miss (d := 1) rfl (by simp [ofCursors, Cursors.empty, advance]))
  have h₅ := h₄.snoc (.make (d := 0) rfl (by simp [ofCursors, Cursors.empty, advance]))
  have h₆ := h₅.snoc (.getMade (d := 1) (c := 0) rfl (by simp [ofCursors, Cursors.empty, advance]))
  have h₇ := h₆.snoc (.add (d := 1) (v := 0) rfl rfl)
  have h₈ := h₇.snoc (.add (d := 0) (v := 1) rfl rfl)
  exact ⟨_, h₈⟩

/-- The draw that is slower to make the counter gets it too, and neither value is lost. -/
theorem draws_consecutive_race :
    ∃ t, Run (ofCursors .empty) race t ∧ .cleared ∉ race ∧ drawnOn "p" race = consecutive 0 2 ∧
      t.peek "p" = some 2 := by
  obtain ⟨t, h⟩ := run_race
  have hne : .cleared ∉ race := by decide
  obtain ⟨hon, -, hpeek⟩ := (draws_consecutive h).2.2.2.1 hne "p"
  refine ⟨t, h, hne, hon, ?_⟩
  rcases hpeek with hpeek | ⟨-, -, hnil⟩
  · exact hpeek
  · cases hnil

end SharedCursors
end HostRotation
