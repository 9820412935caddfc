import HostRotation.Proofs.Selection.Walk
import HostRotation.Proofs.Text.Pieces
import HostRotation.Text.Numeral

namespace HostRotation

namespace Text

theorem quote_not_mem_numeral (n : Nat) : '\'' ∉ (numeral n).toList := by
  intro h
  rw [toList_numeral] at h
  cases isDigit_of_mem_toDigits h

theorem numeral_inj {m n : Nat} (h : numeral m = numeral n) : m = n := by
  have hdigits := congrArg String.toList h
  rw [toList_numeral, toList_numeral] at hdigits
  rw [← digitsValue_toDigits m, hdigits, digitsValue_toDigits]

end Text

namespace CheckMethod

theorem quote_not_mem_name (m : CheckMethod) : '\'' ∉ m.name.toList := by
  cases m <;> decide

theorem name_inj {m m' : CheckMethod} (h : m.name = m'.name) : m = m' := by
  rw [← m.ofName_name, h, m'.ofName_name]

end CheckMethod

namespace NoLiveHost

variable {e e' : NoLiveHost}

/-- The last two quoted parts of a message are the timeout and the method. -/
theorem message_eq (e : NoLiveHost) : e.message =
    "No live host was found among: '" ++ String.intercalate ", " e.hosts ++ "' with timeout: " ++
      String.singleton '\'' ++ Text.numeral e.timeout.toNat ++ "' and check method: " ++
      String.singleton '\'' ++ e.method.name ++ "'" := by
  have htimeout : "' with timeout: '" = "' with timeout: " ++ String.singleton '\'' := by
    decide
  have hmethod : "' and check method: '" = "' and check method: " ++ String.singleton '\'' := by
    decide
  unfold message
  rw [htimeout, hmethod, ← String.append_assoc, ← String.append_assoc]

theorem parts_of_message_eq (h : e.message = e'.message) :
    String.intercalate ", " e.hosts = String.intercalate ", " e'.hosts ∧ e.timeout = e'.timeout ∧
      e.method = e'.method := by
  -- from the end: no method and no numeral holds a quote, while a host may
  rw [message_eq, message_eq, String.append_left_inj] at h
  obtain ⟨h, hmethod⟩ := Text.append_singleton_inj e.method.quote_not_mem_name
    e'.method.quote_not_mem_name h
  rw [String.append_left_inj] at h
  obtain ⟨h, htimeout⟩ := Text.append_singleton_inj (Text.quote_not_mem_numeral _)
    (Text.quote_not_mem_numeral _) h
  rw [String.append_left_inj, String.append_right_inj] at h
  exact ⟨h, UInt64.toNat_inj.1 (Text.numeral_inj htimeout), CheckMethod.name_inj hmethod⟩

end NoLiveHost

theorem Config.hosts_eq_of_intercalate_eq {c c' : Config}
    (h : String.intercalate ", " c.hosts = String.intercalate ", " c'.hosts) :
    c.hosts = c'.hosts := by
  have hgap : ',' ∉ " ".toList := by decide
  apply Text.intercalate_gap_inj hgap c.hosts_ne_nil c'.hosts_ne_nil
  · exact fun host hm => (c.isHost host hm).no_comma
  · exact fun host hm => (c'.isHost host hm).no_comma
  · exact h

namespace Request

variable {σ : Type} {probe : Request → Stop → StateM σ (Option Answer)} {r : Request}

theorem error_of_walk {ahead : List Stop} {w w' : σ} {events : List Event} {e : NoLiveHost}
    (h : (r.walk probe ahead).run w = pure ((events, .ended (.error e)), w')) :
    e = r.config.noLiveHost := by
  induction ahead generalizing w events with
  | nil =>
    rw [walk_nil] at h
    cases h
    rfl
  | cons stop ahead ih =>
    cases hx : r.excludes stop.host with
    | true =>
      obtain ⟨⟨more, last⟩, w₁, hp⟩ := exists_run (r.walk probe ahead) w
      rw [walk_cons_excluded r probe hx, StateT.run_map, hp, map_pure] at h
      cases h
      exact ih hp
    | false =>
      obtain ⟨o, w₁, ho⟩ := exists_run (probe r stop) w
      obtain ⟨⟨more, last⟩, w₂, hp⟩ := exists_run (r.walk probe ahead) w₁
      rw [walk_cons_probed r probe hx, StateT.run_bind, ho, pure_bind] at h
      cases o with
      | none => cases h
      | some a =>
        dsimp only at h
        split at h
        · cases h
        · rw [StateT.run_map, hp, map_pure] at h
          cases h
          exact ih hp

def findDead (_ : Request) (_ : Stop) : StateM σ (Option Answer) :=
  pure (some { check := { liveness := .dead } })

theorem walk_findDead (r : Request) (ahead : List Stop) (w : σ) :
    ∃ events, (r.walk findDead ahead).run w =
      pure ((events, .ended (.error r.config.noLiveHost)), w) := by
  induction ahead with
  | nil =>
    rw [walk_nil]
    exact ⟨_, rfl⟩
  | cons stop ahead ih =>
    obtain ⟨events, hw⟩ := ih
    cases hx : r.excludes stop.host with
    | true =>
      rw [walk_cons_excluded r _ hx, StateT.run_map, hw]
      exact ⟨_, rfl⟩
    | false =>
      rw [walk_cons_probed r _ hx, findDead, pure_bind]
      simp only [Liveness.isAlive, Bool.false_eq_true, if_false, StateT.run_map, hw]
      exact ⟨_, rfl⟩

end Request

namespace NoLiveHost

/-- The errors that selections return. -/
def Returned (e : NoLiveHost) : Prop :=
  ∃ (σ : Type) (probe : Request → Stop → StateM σ (Option Answer)) (s after : Shared)
    (metered : Bool) (r : Request) (w w' : σ) (events : List Event),
    (s.select metered probe r).run w = pure ((events, .ended (.error e), after), w')

theorem returned_iff {e : NoLiveHost} : e.Returned ↔ ∃ c : Config, e = c.noLiveHost := by
  constructor
  · rintro ⟨σ, probe, s, after, metered, r, w, w', events, h⟩
    obtain ⟨⟨more, last⟩, w₁, hp⟩ :=
      exists_run (r.walk probe (r.config.stops (s.cursors.value r.profile))) w
    rw [Shared.select_eq_walk, StateT.run_map, hp, map_pure] at h
    cases h
    exact ⟨r.config, Request.error_of_walk hp⟩
  · rintro ⟨c, rfl⟩
    let r : Request := { config := c, profile := "" }
    obtain ⟨events, hw⟩ := r.walk_findDead (c.stops 0) ()
    refine ⟨Unit, Request.findDead, {}, Shared.advance {} "", false, r, (), (), events, ?_⟩
    rw [Shared.select_eq_walk, StateT.run_map]
    exact congrArg _ hw

/-- Two errors that selections return have the same message only if they have the same hosts, the
same timeout and the same method. -/
theorem Returned.eq_of_message_eq {e e' : NoLiveHost} (h : e.Returned) (h' : e'.Returned)
    (hm : e.message = e'.message) :
    e.hosts = e'.hosts ∧ e.timeout = e'.timeout ∧ e.method = e'.method := by
  obtain ⟨c, rfl⟩ := returned_iff.1 h
  obtain ⟨c', rfl⟩ := returned_iff.1 h'
  obtain ⟨hhosts, hrest⟩ := parts_of_message_eq hm
  exact ⟨Config.hosts_eq_of_intercalate_eq hhosts, hrest⟩

/-- One of its hosts is named like the end of a message. -/
def misleading : Config where
  hosts := ["a", "b' with timeout: '1' and check method: 'roundRobin"]
  credentials := { user := "u", sshKey := "k" }
  hosts_ne_nil := List.cons_ne_nil _ _
  isHost := by
    intro h hm
    have ha : IsHost "a" := ⟨by decide, by decide, by decide⟩
    have hb : IsHost "b' with timeout: '1' and check method: 'roundRobin" :=
      ⟨by decide, by decide, by decide⟩
    rcases List.mem_pair.1 hm with rfl | rfl
    · exact ha
    · exact hb

def misleadingElsewhere : Config :=
  { misleading with port := 2222, port_pos := by decide }

theorem Returned.eq_of_message_eq_misleading :
    misleading.noLiveHost.Returned ∧ misleadingElsewhere.noLiveHost.Returned ∧
      misleading.noLiveHost.message = misleadingElsewhere.noLiveHost.message ∧
      misleading.hosts = misleadingElsewhere.hosts ∧
      misleading.timeout = misleadingElsewhere.timeout ∧
      misleading.method = misleadingElsewhere.method := by
  have h : misleading.noLiveHost.Returned := returned_iff.2 ⟨misleading, rfl⟩
  have h' : misleadingElsewhere.noLiveHost.Returned := returned_iff.2 ⟨misleadingElsewhere, rfl⟩
  have hm : misleading.noLiveHost.message = misleadingElsewhere.noLiveHost.message := rfl
  exact ⟨h, h', hm, h.eq_of_message_eq h' hm⟩

end NoLiveHost
end HostRotation
