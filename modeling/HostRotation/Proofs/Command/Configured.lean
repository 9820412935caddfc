import HostRotation.Command.Run

namespace HostRotation.Command

variable {σ : Type} {outside : Outside (StateM σ)}

/-- The file that a path names, read from one state of the surroundings to another. Without a path
nothing is read. -/
inductive Reads (outside : Outside (StateM σ)) (w : σ) :
    Option String → Option ConfigFile → σ → Prop where
  | absent : Reads outside w none none w
  | file {path : String} {content : Except String ByteArray} {w₁ : σ}
    (h : (outside.fileContent path).run w = pure (content, w₁)) :
    Reads outside w (some path) (some { path, content }) w₁

variable {args : List String} {a : SelectArgs} {path : Option String} {file : Option ConfigFile}
  {p : Properties} {c c' : Config} {w w₁ : σ}

theorem Reads.run (h : Reads outside w path file w₁) :
    (readConfigFile outside path).run w = pure (file, w₁) := by
  cases h with
  | absent => rfl
  | file h => simp [readConfigFile, h]

theorem exists_reads (outside : Outside (StateM σ)) (path : Option String) (w : σ) :
    ∃ file w₁, Reads outside w path file w₁ := by
  cases path with
  | none => exact ⟨none, w, .absent⟩
  | some path => exact ⟨_, _, .file rfl⟩

/-- The configuration that comes of a file, if there is one, and the pairs of the arguments. -/
def Configured (file : Option ConfigFile) (a : SelectArgs) (c : Config) : Prop :=
  ∃ p, Properties.ofLayers file a.properties = .ok p ∧ Config.ofProperties p = .ok c

theorem Configured.unique (h : Configured file a c) (h' : Configured file a c') : c = c' := by
  obtain ⟨p, hlayers, hp⟩ := h
  obtain ⟨p', hlayers', hp'⟩ := h'
  obtain rfl : p = p' := Except.ok.inj (hlayers.symm.trans hlayers')
  exact Except.ok.inj (hp.symm.trans hp')

theorem run_select_of_not_configured (hfile : Reads outside w a.config file w₁)
    (hc : ∀ c, ¬Configured file a c) :
    ∃ o, (select outside a).run w = pure (o, w₁) ∧ o.stdout = "" ∧ o.exitCode = 1 := by
  cases hlayers : Properties.ofLayers file a.properties with
  | error fault =>
    exact ⟨.refused fault.message, by simp [select, hfile.run, hlayers], rfl, rfl⟩
  | ok p =>
    cases hp : Config.ofProperties p with
    | error e =>
      exact ⟨{ ending := .failed { cause := .fault (.config e) } },
        by simp [select, hfile.run, hlayers, hp], rfl, rfl⟩
    | ok c => exact absurd ⟨p, hlayers, hp⟩ (hc c)

theorem run_select_of_configured (hfile : Reads outside w a.config file w₁)
    (hc : Configured file a c) :
    (select outside a).run w = (selectHosts outside a c).run w₁ := by
  obtain ⟨p, hlayers, hp⟩ := hc
  simp [select, hfile.run, hlayers, hp]

/-- A run of `select` puts a property map together, and the state in which it has done so. -/
def Builds (outside : Outside (StateM σ)) (args : List String) (w : σ) (a : SelectArgs)
    (p : Properties) (w₁ : σ) : Prop :=
  Invocation.ofArguments args = .ok (.select a) ∧ ∃ file, Reads outside w a.config file w₁ ∧
    Properties.ofLayers file a.properties = .ok p

theorem Builds.run_of_error {e : ConfigError} (h : Builds outside args w a p w₁)
    (hp : Config.ofProperties p = .error e) :
    (run outside args).run w =
      pure ({ ending := .failed { cause := .fault (.config e) } }, w₁) := by
  obtain ⟨hargs, file, hfile, hlayers⟩ := h
  simp [run, hargs, select, hfile.run, hlayers, hp]

theorem Builds.run_of_ok (h : Builds outside args w a p w₁)
    (hp : Config.ofProperties p = .ok c) :
    (run outside args).run w = (selectHosts outside a c).run w₁ := by
  obtain ⟨hargs, file, hfile, hlayers⟩ := h
  rw [run, hargs]
  exact run_select_of_configured hfile ⟨p, hlayers, hp⟩

end HostRotation.Command
