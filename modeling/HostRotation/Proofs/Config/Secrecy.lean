import HostRotation.Config.Properties
import HostRotation.Config.Shown

namespace HostRotation

/-- Both property maps hold a key, and they differ in nothing else. -/
structure Properties.SameButKey (p p' : Properties) : Prop where
  holds : p[Property.sshKey]?.isSome
  holds' : p'[Property.sshKey]?.isSome
  others : ∀ name : String, name ≠ Property.sshKey → p[name]? = p'[name]?

namespace Config

def withKey (c : Config) (key : String) : Config :=
  { c with credentials := { c.credentials with sshKey := key } }

theorem shown_withKey (c : Config) (key : String) : (c.withKey key).shown = c.shown :=
  rfl

theorem shown_credentials_withKey (c : Config) (key : String) :
    (c.withKey key).credentials.shown = c.credentials.shown :=
  rfl

theorem readEntry_withKey (c : Config) (key : String) : (c.withKey key).readEntry = c.readEntry :=
  rfl

variable {p p' : Properties}

theorem required_congr {name : String} (h : p[name]? = p'[name]?) :
    required p name = required p' name := by
  rw [required, required, h]

theorem methodOf_congr (h : p.SameButKey p') : methodOf p = methodOf p' := by
  rw [methodOf, methodOf, h.others Property.method (by decide),
    h.others Property.olderMethod (by decide)]

theorem ofProperties_eq_map (h : p.SameButKey p') {key : String}
    (hkey : p'[Property.sshKey]? = some key) :
    ofProperties p' = (·.withKey key) <$> ofProperties p := by
  obtain ⟨key₀, hkey₀⟩ := Option.isSome_iff_exists.1 h.holds
  have hread : required p Property.sshKey = pure key₀ := by
    rw [required, hkey₀]
    rfl
  have hread' : required p' Property.sshKey = pure key := by
    rw [required, hkey]
    rfl
  simp only [ofProperties, hread, hread', ← methodOf_congr h,
    ← required_congr (h.others Property.host (by decide)),
    ← required_congr (h.others Property.user (by decide)),
    ← h.others Property.timeout (by decide), ← h.others Property.port (by decide),
    ← h.others Property.initializationAction (by decide),
    ← h.others Property.kerberosPrincipal (by decide),
    ← h.others Property.kerberosKeytabPath (by decide), map_bind, map_pure, pure_bind]
  rfl

theorem ofProperties_cases (h : p.SameButKey p') :
    (∃ e, ofProperties p = .error e ∧ ofProperties p' = .error e) ∨
      ∃ c key, p'[Property.sshKey]? = some key ∧ ofProperties p = .ok c ∧
        ofProperties p' = .ok (c.withKey key) := by
  obtain ⟨key, hkey⟩ := Option.isSome_iff_exists.1 h.holds'
  rw [ofProperties_eq_map h hkey]
  cases hp : ofProperties p with
  | error e => exact .inl ⟨e, rfl, rfl⟩
  | ok c => exact .inr ⟨c, key, hkey, rfl, rfl⟩

end Config
end HostRotation
