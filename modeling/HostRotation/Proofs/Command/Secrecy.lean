import HostRotation.Proofs.Command.Configured
import HostRotation.Proofs.Selection.Times

namespace HostRotation.Command

variable {σ : Type}

def Output.untimed (o : Output) : Output :=
  { o with snapshot := o.snapshot.map Snapshot.untimed }

theorem selectHosts_withKey {m : Type → Type} [Monad m] [LawfulMonad m] (outside : Outside m)
    (a : SelectArgs) (c : Config) (key : String) :
    selectHosts outside a (c.withKey key) = selectHosts outside a c := by
  have hseries : Shared.selectUntil {} true (Request.probe outside.toSurroundings)
      { config := c.withKey key, profile := a.profile, exclude := a.exclude } a.count.toNat =
        Shared.selectUntil {} true (Request.probe outside.toSurroundings)
          { config := c, profile := a.profile, exclude := a.exclude } a.count.toNat := by
    rw [Request.probe_eq_askedBy]
    exact Shared.selectUntil_withKey _ key {} true
      { config := c, profile := a.profile, exclude := a.exclude } _
  simp only [selectHosts, hseries]
  rfl

theorem selectHosts_alike {outside : Outside (StateM σ)} {R : σ → σ → Prop}
    (h : outside.toSurroundings.Steady R) (a : SelectArgs) (c : Config) :
    Alike R (fun o o' => o.untimed = o'.untimed ∧ (a.metrics = false → o = o'))
      (selectHosts outside a c) (selectHosts outside a c) := by
  refine h.clock.bind fun start start' _ => ?_
  refine (Shared.selectUntil_alike (fun stop => h.probe _ stop) ⟨rfl, rfl⟩ true _).bind ?_
  intro x y hxy
  refine h.clock.bind fun finish finish' _ => .pure ?_
  have hsnapshot := Tally.untimed_snapshot hxy.shared.tally
    (.ofNat ((finish - start) / 1000)) (.ofNat ((finish' - start') / 1000))
  simp only [Output.untimed, hxy.selected, hxy.failure, hxy.events.entries]
  split
  · next hm => exact ⟨by rw [Option.map_some, Option.map_some, hsnapshot], by simp [hm]⟩
  · exact ⟨rfl, fun _ => rfl⟩

theorem Output.stderr_of_untimed {o o' : Output} (h : o.untimed = o'.untimed)
    (filter : Log.Filter) : o.stderr filter = o'.stderr filter := by
  have hstderr := congrArg (Output.stderr · filter) h
  exact hstderr

theorem Output.exitCode_of_untimed {o o' : Output} (h : o.untimed = o'.untimed) :
    o.exitCode = o'.exitCode := by
  have hexit := congrArg Output.exitCode h
  exact hexit

theorem Builds.run_alike {outside : Outside (StateM σ)} {R : σ → σ → Prop}
    (hR : outside.toSurroundings.Steady R) {args args' : List String} {a a' : SelectArgs}
    {p p' : Properties} {w w₁ w' w₁' : σ} (hp : p.SameButKey p')
    (ha : a' = { a with config := a'.config, properties := a'.properties })
    (h : Builds outside args w a p w₁) (h' : Builds outside args' w' a' p' w₁') (hw : R w₁ w₁') :
    ∃ o v o' v', (run outside args).run w = pure (o, v) ∧
      (run outside args').run w' = pure (o', v') ∧ o.untimed = o'.untimed ∧ R v v' ∧
      (w₁ = w₁' → o = o' ∧ v = v') ∧ (a.metrics = false → o = o') := by
  rcases Config.ofProperties_cases hp with ⟨e, he, he'⟩ | ⟨c, key, -, hc, hc'⟩
  · exact ⟨_, _, _, _, h.run_of_error he, h'.run_of_error he', rfl, hw, fun hw₁ => ⟨rfl, hw₁⟩,
      fun _ => rfl⟩
  · have hsame : selectHosts outside a' (c.withKey key) = selectHosts outside a c := by
      rw [ha]
      exact selectHosts_withKey outside a c key
    rw [h.run_of_ok hc, h'.run_of_ok hc', hsame]
    obtain ⟨o, v, o', v', ho, ho', ⟨huntimed, hplain⟩, hv⟩ := selectHosts_alike hR a c w₁ w₁' hw
    refine ⟨o, v, o', v', ho, ho', huntimed, hv, ?_, hplain⟩
    rintro rfl
    exact Prod.mk.inj (ho.symm.trans ho')

/-- Nothing that the program shows depends on the key. Two property maps that differ in it are
refused with one error, or read as configurations that differ in it only and are shown and logged
alike. On these, selections of any kind are the same programs; where their probes find the same in
other times, they give the same results, logs and cursors, and the same counts but for what depends
on the time. So are runs of the command that put the two property maps together, up to the times in
a snapshot; in the same state of the surroundings these are the same too. -/
theorem key_unobservable {p p' : Properties} (h : p.SameButKey p') :
    ((∃ e, Config.ofProperties p = .error e ∧ Config.ofProperties p' = .error e) ∨
      ∃ c c' key, Config.ofProperties p = .ok c ∧ Config.ofProperties p' = .ok c' ∧
        c' = c.withKey key ∧ c.shown = c'.shown ∧ c.credentials.shown = c'.credentials.shown ∧
        c.readEntry = c'.readEntry ∧
        (∀ (m : Type → Type) [Monad m] [LawfulMonad m]
          (ask : CheckMethod → UInt16 → String → Timespan → m (Option Answer)) (s : Shared)
          (asks : List Ask), s.selectEach (Request.askedBy ask) c asks =
            s.selectEach (Request.askedBy ask) c' asks) ∧
        ∀ (σ : Type) (R : σ → σ → Prop)
          (ask : CheckMethod → UInt16 → String → Timespan → StateM σ (Option Answer)),
          (∀ method port host limit, Alike R SameFinding (ask method port host limit)
            (ask method port host limit)) →
          ∀ (s s' : Shared) (asks : List Ask), s.SameButTimes s' →
            Alike R (fun x y => x.1.map Prod.snd = y.1.map Prod.snd ∧
                x.1.map (·.1.flatMap Event.entries) = y.1.map (·.1.flatMap Event.entries) ∧
                x.2.cursors = y.2.cursors ∧ ∀ uptime uptime',
                  (x.2.tally.snapshot uptime).untimed = (y.2.tally.snapshot uptime').untimed)
              (s.selectEach (Request.askedBy ask) c asks)
              (s'.selectEach (Request.askedBy ask) c' asks)) ∧
    ∀ (σ : Type) (outside : Outside (StateM σ)) (R : σ → σ → Prop) (args args' : List String)
      (a a' : SelectArgs) (w w₁ w' w₁' : σ), outside.toSurroundings.Steady R →
      a' = { a with config := a'.config, properties := a'.properties } →
      Builds outside args w a p w₁ → Builds outside args' w' a' p' w₁' → R w₁ w₁' →
      ∃ o v o' v', (run outside args).run w = pure (o, v) ∧
        (run outside args').run w' = pure (o', v') ∧ o.exitCode = o'.exitCode ∧
        (∀ filter, o.stderr filter = o'.stderr filter) ∧ o.untimed.stdout = o'.untimed.stdout ∧
        (a.metrics = false → o.stdout = o'.stdout) ∧ (w₁ = w₁' → o = o' ∧ v = v') := by
  refine ⟨?_, ?_⟩
  · rcases Config.ofProperties_cases h with hrefused | ⟨c, key, -, hc, hc'⟩
    · exact .inl hrefused
    · refine .inr ⟨c, c.withKey key, key, hc, hc', rfl, (c.shown_withKey key).symm,
        (c.shown_credentials_withKey key).symm, (c.readEntry_withKey key).symm, ?_, ?_⟩
      · intro m _ _ ask s asks
        exact (s.selectEach_withKey ask key c asks).symm
      · intro σ R ask hask s s' asks hs
        rw [s'.selectEach_withKey ask key c asks]
        have hprobe (r : Request) (stop : Stop) :
            Alike R SameFinding (r.askedBy ask stop) (r.askedBy ask stop) :=
          hask r.config.method r.config.port stop.host r.config.checkTime
        have halike := Shared.selectEach_alike (c := c) (fun r stop _ => hprobe r stop) hs asks
        intro w w' hw
        obtain ⟨x, v, y, v', hx, hy, ⟨hrounds, hshared⟩, hv⟩ := halike w w' hw
        exact ⟨x, v, y, v', hx, hy, ⟨hrounds.results, hrounds.entries, hshared.cursors,
          Tally.untimed_snapshot hshared.tally⟩, hv⟩
  · intro σ outside R args args' a a' w w₁ w' w₁' hR ha hb hb' hw
    obtain ⟨o, v, o', v', ho, ho', huntimed, -, hexact, hplain⟩ := hb.run_alike hR h ha hb' hw
    exact ⟨o, v, o', v', ho, ho', Output.exitCode_of_untimed huntimed,
      Output.stderr_of_untimed huntimed, congrArg Output.stdout huntimed,
      fun hm => congrArg Output.stdout (hplain hm), hexact⟩

def hurrying : Outside (StateM Nat) where
  clock := modifyGet fun t => (t, 2 * t + 1)
  connect _ _ _ := pure .accepted
  execute _ _ _ := pure .killed
  fileContent _ := pure (.error "entity not found")

theorem hurrying_steady : hurrying.toSurroundings.Steady fun _ _ => True where
  clock w w' _ := ⟨w, 2 * w + 1, w', 2 * w' + 1, rfl, rfl, trivial, trivial⟩
  connect _ _ _ := .pure rfl
  execute _ _ _ := .pure rfl

def keyedArgs (key : String) : List String :=
  ["select", "-p", "host=a", "-p", "user=u", "-p", "sshKey=" ++ key, "-p",
    "loadBalancingMethod=roundRobinSocket", "--metrics"]

def keyedProperties (key : String) : Properties :=
  .ofList [("host", "a"), ("user", "u"), ("sshKey", key),
    ("loadBalancingMethod", "roundRobinSocket")]

/-- Two runs with different keys at different times: what they write differs, but in times only. -/
theorem key_unobservable_hurrying :
    ∃ o v o' v', (run hurrying (keyedArgs "k")).run 0 = pure (o, v) ∧
      (run hurrying (keyedArgs "other")).run 1000 = pure (o', v') ∧ o.stdout ≠ o'.stdout ∧
      o.untimed.stdout = o'.untimed.stdout ∧ o.exitCode = o'.exitCode := by
  have hkey : (keyedProperties "k").SameButKey (keyedProperties "other") := by
    refine ⟨rfl, rfl, fun name hne => ?_⟩
    have hname : (name == "sshKey") = false := beq_eq_false_iff_ne.2 hne
    simp only [keyedProperties, Table.getElem?_ofList, List.reverse_cons, List.reverse_nil,
      List.nil_append, List.cons_append, List.lookup_cons, hname]
  have hb : Builds hurrying (keyedArgs "k") 0 {
      properties := ["host=a", "user=u", "sshKey=k", "loadBalancingMethod=roundRobinSocket"]
      metrics := true } (keyedProperties "k") 0 := ⟨rfl, none, .absent, rfl⟩
  have hb' : Builds hurrying (keyedArgs "other") 1000 {
      properties := ["host=a", "user=u", "sshKey=other", "loadBalancingMethod=roundRobinSocket"]
      metrics := true } (keyedProperties "other") 1000 := ⟨rfl, none, .absent, rfl⟩
  obtain ⟨o, v, o', v', ho, ho', hexit, -, hstdout, -⟩ :=
    (key_unobservable hkey).2 Nat hurrying _ _ _ _ _ _ _ _ _ hurrying_steady rfl hb hb' trivial
  refine ⟨o, v, o', v', ho, ho', ?_, hstdout, hexit⟩
  rw [← show _ = o from congrArg Prod.fst ho, ← show _ = o' from congrArg Prod.fst ho']
  decide +kernel

end HostRotation.Command
