import EidMap.Cli.Options
import EidMap.Cli.Settings

/-!
# The credentials of a run

A profile is turned into the settings of a service in two layers, the flags and the profile, and
each of them looks for a user. What a run with a password among its flags uses follows from both.
-/

namespace EidMap

namespace Profile

def base (p : Profile) (d : Defaults) (url : Url) : Settings :=
  ⟨url, none, none, p.tls d, millis (p.timeout.getD d.timeout)⟩

theorem settings_eq {p : Profile} {url : Url} (h : Url.read p.controller = .ok url)
    (name : String) (d : Defaults) (s : Secrets) :
    p.settings name d s =
      match p.username <|> s.environment.get? "LISPMAP_USERNAME", p.password? name s with
      | none, _ => .ok (p.base d url)
      | some user, some password =>
        .ok { p.base d url with username := some user, password := some password }
      | some _, none => .error (.noCredentials name) := by
  have hbase : p.anonymous d = .ok (p.base d url) := by
    rw [anonymous, h]
    rfl
  rw [settings, hbase]
  simp only [bind, Except.bind, resolvePassword]
  cases p.username <|> s.environment.get? "LISPMAP_USERNAME"
  · rfl
  · cases p.password? name s <;> rfl

end Profile

namespace Cli.Globals

variable {g : Globals} {c : Config} {s : Secrets} {p : Profile} {password : String} {url : Url}

theorem profileSettings_of_password (flag : g.password = some password)
    (hurl : Url.read (g.controller.getD p.controller) = .ok url) (name : String) (d : Defaults) :
    g.profileSettings p name d s =
      match s.environment.get? "LISPMAP_USERNAME", p.password? name s,
        g.username <|> p.username with
      | some _, none, _ => .error (.noCredentials name)
      | _, _, some user => .ok
        { (g.adjust p).base d url with username := some user, password := some password }
      | some user, some stored, none => .ok
        { (g.adjust p).base d url with username := some user, password := some stored }
      | none, _, none => .ok ((g.adjust p).base d url) := by
  have hsettings := Profile.settings_eq (p := { g.adjust p with username := none }) hurl name d s
  have hstored : Profile.password? { g.adjust p with username := none } name s =
      p.password? name s := rfl
  have hadjusted : (g.adjust p).username = (g.username <|> p.username) := rfl
  rw [hstored] at hsettings
  rw [profileSettings, flag]
  simp only [hsettings, hadjusted]
  cases s.environment.get? "LISPMAP_USERNAME" <;> cases p.password? name s <;>
    cases g.username <|> p.username <;> rfl

theorem settings_of_profile (active : c.profile? (g.profileName c) = some p) (path : String) :
    g.settings c s path =
      (g.profileSettings p (g.profileName c) c.defaults s).mapError Error.ofConfig := by
  simp only [settings, active]
  cases g.profileSettings p (g.profileName c) c.defaults s <;> rfl

/-- A password among the flags is used for the user of the flags or of the profile, unless the
environment names a user, by `LISPMAP_USERNAME`, for whom no password is stored. -/
theorem settings_of_password (flag : g.password = some password)
    (active : c.profile? (g.profileName c) = some p)
    (hurl : Url.read (g.controller.getD p.controller) = .ok url) (path : String) :
    (s.environment.get? "LISPMAP_USERNAME" = none ∨ (p.password? (g.profileName c) s).isSome →
      ∃ r, g.settings c s path = .ok r ∧ r.url = url ∧
        (∀ user, (g.username <|> p.username) = some user →
          r.username = some user ∧ r.password = some password) ∧
        ((g.username <|> p.username) = none →
          r.username = s.environment.get? "LISPMAP_USERNAME" ∧
          r.password = r.username.bind fun _ => p.password? (g.profileName c) s)) ∧
    (∀ user, s.environment.get? "LISPMAP_USERNAME" = some user →
      p.password? (g.profileName c) s = none →
      g.settings c s path = .error (.noCredentials (g.profileName c))) := by
  have hprofile := profileSettings_of_password (s := s) flag hurl (g.profileName c) c.defaults
  rw [settings_of_profile active, hprofile]
  -- Only a user of the environment makes the profile ask for a stored password.
  refine ⟨fun h => ?_, fun user huser hstored => ?_⟩
  · cases huser : s.environment.get? "LISPMAP_USERNAME" with
    | none =>
      cases hown : (g.username <|> p.username) with
      | none => exact ⟨_, rfl, rfl, nofun, fun _ => ⟨rfl, rfl⟩⟩
      | some own => exact ⟨_, rfl, rfl, by rintro user ⟨⟩; exact ⟨rfl, rfl⟩, nofun⟩
    | some user =>
      rw [huser] at h
      obtain ⟨stored, hstored⟩ := Option.isSome_iff_exists.1 (h.resolve_left nofun)
      rw [hstored]
      cases hown : (g.username <|> p.username) with
      | none => exact ⟨_, rfl, rfl, nofun, fun _ => ⟨rfl, rfl⟩⟩
      | some own => exact ⟨_, rfl, rfl, by rintro user ⟨⟩; exact ⟨rfl, rfl⟩, nofun⟩
  · rw [huser, hstored]
    rfl

def adminFlags : Globals :=
  ⟨none, none, some "admin", some "p", .table, .auto, false, false, false, none⟩

def openProfile : Profile := { Profile.empty with controller := "http://odl:8181" }

def openConfig : Config := ⟨some "default", .builtIn, [("default", openProfile)]⟩

theorem exists_openUrl : ∃ url, Url.read "http://odl:8181" = .ok url := by
  have hok : (Url.read "http://odl:8181").isOk = true := by decide +kernel
  cases hread : Url.read "http://odl:8181" with
  | ok url => exact ⟨url, rfl⟩
  | error e =>
    rw [hread] at hok
    cases hok

theorem admin_logged_in :
    ∃ r, adminFlags.settings openConfig ⟨[], []⟩ "config.toml" = .ok r ∧
      r.username = some "admin" ∧ r.password = some "p" := by
  obtain ⟨url, hurl⟩ := exists_openUrl
  have hactive : openConfig.profile? (adminFlags.profileName openConfig) = some openProfile := rfl
  obtain ⟨hok, -⟩ := settings_of_password (s := ⟨[], []⟩) rfl hactive hurl "config.toml"
  obtain ⟨r, hr, -, huser, -⟩ := hok (.inl rfl)
  exact ⟨r, hr, huser "admin" rfl⟩

/-- The same user, named by the environment, is refused for want of a stored password. -/
theorem environment_user_refused :
    (Options.read [("LISPMAP_USERNAME", "admin")] ["--password", "p", "mappings", "list"]).map
        Options.globals = .ok adminFlags ∧
      adminFlags.settings openConfig ⟨[("LISPMAP_USERNAME", "admin")], []⟩ "config.toml" =
        .error (.noCredentials "default") := by
  refine ⟨rfl, ?_⟩
  obtain ⟨url, hurl⟩ := exists_openUrl
  have hactive : openConfig.profile? (adminFlags.profileName openConfig) = some openProfile := rfl
  have hprofile := profileSettings_of_password (g := adminFlags) (p := openProfile)
    (s := ⟨[("LISPMAP_USERNAME", "admin")], []⟩) rfl hurl "default" .builtIn
  rw [settings_of_profile hactive]
  exact congrArg (Except.mapError Error.ofConfig) hprofile

end Cli.Globals

end EidMap
