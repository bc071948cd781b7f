import EidMap.Proofs.Cli.Credentials
import EidMap.Proofs.Cli.Setup

/-!
# What the settings of a run are taken from

A run is described by its flags, by the active profile and by the defaults of the configuration. What
a flag says prevails over the profile, and the profile over the defaults; they stand behind a profile
only, so a run without one falls back on settings that are built in.
-/

namespace EidMap

def Settings.IsLogin (base r : Settings) : Prop :=
  ∃ user password, r = { base with username := user, password := password } ∧
    (user.isSome ↔ password.isSome)

theorem Settings.isLogin_anonymous {base : Settings} (user : base.username = none)
    (password : base.password = none) : base.IsLogin base := by
  cases base
  cases user
  cases password
  exact ⟨none, none, rfl, Iff.rfl⟩

theorem Settings.isLogin_user (base : Settings) (user password : String) :
    base.IsLogin { base with username := some user, password := some password } :=
  ⟨some user, some password, rfl, Iff.rfl⟩

theorem Settings.IsLogin.change {base r : Settings} (h : base.IsLogin r) (user password : String) :
    base.IsLogin { r with username := some user, password := some password } := by
  obtain ⟨_, _, rfl, -⟩ := h
  exact base.isLogin_user user password

theorem Profile.isLogin_settings {p : Profile} {name : String} {d : Defaults} {s : Secrets}
    {r : Settings} (h : p.settings name d s = .ok r) :
    ∃ url, Url.read p.controller = .ok url ∧ (p.base d url).IsLogin r := by
  cases hurl : Url.read p.controller with
  | error e =>
    rw [settings, anonymous, hurl] at h
    cases h
  | ok url =>
    rw [settings_eq hurl] at h
    refine ⟨url, rfl, ?_⟩
    split at h
    · cases h
      exact Settings.isLogin_anonymous rfl rfl
    · cases h
      exact Settings.isLogin_user _ _ _
    · cases h

namespace Cli.Globals

variable {g : Globals} {c : Config} {s : Secrets} {p : Profile} {name path : String}
  {d : Defaults} {r : Settings}

theorem isLogin_profileSettings (h : g.profileSettings p name d s = .ok r) :
    ∃ url, Url.read (g.controller.getD p.controller) = .ok url ∧
      ((g.adjust p).base d url).IsLogin r := by
  rw [profileSettings] at h
  cases hpassword : g.password with
  | none =>
    simp only [hpassword] at h
    have hlogin := Profile.isLogin_settings h
    exact hlogin
  | some password =>
    simp only [hpassword] at h
    -- The profile is asked without its user, whom the password of the flag is for.
    obtain ⟨settings, hanonymous, h⟩ := Json.bind_eq_ok.1 h
    obtain ⟨url, hurl, hlogin⟩ := Profile.isLogin_settings hanonymous
    refine ⟨url, hurl, ?_⟩
    cases huser : (g.adjust p).username with
    | none =>
      simp only [huser] at h
      cases h
      exact hlogin
    | some user =>
      simp only [huser] at h
      cases h
      exact hlogin.change user password

def flagBase (g : Globals) (url : Url) : Settings :=
  ⟨url, none, none, g.flagTls, Profile.millis (g.timeout.getD standardWait)⟩

theorem isLogin_flagSettings (h : g.flagSettings name path = .ok r) :
    ∃ text url, g.controller = some text ∧ Url.read text = .ok url ∧ (g.flagBase url).IsLogin r := by
  rw [flagSettings] at h
  split at h
  · cases h
  · rename_i text htext
    split at h
    · cases h
    · rename_i url hurl
      refine ⟨text, url, htext, hurl, ?_⟩
      dsimp only at h
      split at h
      · cases h
        exact Settings.isLogin_anonymous rfl rfl
      · cases h
      · cases h
        exact Settings.isLogin_user _ _ _

def controllerText? (g : Globals) (c : Config) : Option String :=
  g.controller <|> (c.profile? (g.profileName c)).map Profile.controller

/-- The settings of a run, before a user is named in them. -/
def base (g : Globals) (c : Config) (url : Url) : Settings :=
  match c.profile? (g.profileName c) with
  | some p => (g.adjust p).base c.defaults url
  | none => g.flagBase url

theorem isLogin_settings (h : g.settings c s path = .ok r) :
    ∃ text url, g.controllerText? c = some text ∧ Url.read text = .ok url ∧
      (g.base c url).IsLogin r := by
  cases hactive : c.profile? (g.profileName c) with
  | some p =>
    rw [settings_of_profile hactive] at h
    cases hprofile : g.profileSettings p (g.profileName c) c.defaults s with
    | error e =>
      rw [hprofile] at h
      cases h
    | ok settings =>
      rw [hprofile] at h
      cases h
      obtain ⟨url, hurl, hlogin⟩ := isLogin_profileSettings hprofile
      refine ⟨g.controller.getD p.controller, url, ?_, hurl, ?_⟩
      · rw [controllerText?, hactive]
        cases g.controller <;> rfl
      · rwa [base, hactive]
  | none =>
    cases hnamed : g.profile with
    | some name =>
      simp only [settings, hactive, hnamed] at h
      cases h
    | none =>
      simp only [settings, hactive, hnamed] at h
      obtain ⟨text, url, htext, hurl, hlogin⟩ := isLogin_flagSettings h
      refine ⟨text, url, ?_, hurl, ?_⟩
      · rw [controllerText?, htext]
        rfl
      · rwa [base, hactive]

theorem timeoutMs_base (g : Globals) (c : Config) (url : Url) :
    (g.base c url).timeoutMs = Profile.millis (g.timeout.getD
      ((c.profile? (g.profileName c)).elim standardWait fun p =>
        p.timeout.getD c.defaults.timeout)) := by
  rw [base]
  cases c.profile? (g.profileName c) with
  | none => rfl
  | some p =>
    have hadjusted : (g.adjust p).timeout = (g.timeout <|> p.timeout) := rfl
    simp only [Profile.base, hadjusted, Option.elim_some]
    cases g.timeout <;> rfl

def unchecked (g : Globals) (c : Config) : Bool :=
  g.insecure || (c.profile? (g.profileName c)).elim false fun p =>
    p.insecure.getD c.defaults.insecure

theorem unchecked_iff : g.unchecked c = true ↔
    g.insecure = true ∨ ∃ p, c.profile? (g.profileName c) = some p ∧
      (p.insecure = some true ∨ p.insecure = none ∧ c.defaults.insecure = true) := by
  rw [unchecked, Bool.or_eq_true]
  refine or_congr_right ?_
  cases c.profile? (g.profileName c) with
  | none => simp
  | some p => cases hinsecure : p.insecure <;> simp [hinsecure]

def trusted (g : Globals) (c : Config) : Tls :=
  ((c.profile? (g.profileName c)).bind Profile.caCert).elim .systemDefaults .customCa

theorem trusted_ne (g : Globals) (c : Config) : g.trusted c ≠ .acceptInvalid := by
  rw [trusted]
  cases (c.profile? (g.profileName c)).bind Profile.caCert <;> exact Tls.noConfusion

theorem tls_base (g : Globals) (c : Config) (url : Url) :
    (g.base c url).tls = if g.unchecked c then .acceptInvalid else g.trusted c := by
  rw [base, unchecked, trusted]
  cases c.profile? (g.profileName c) with
  | none => simp [flagBase, flagTls]
  | some p =>
    have hinsecure : (g.adjust p).insecure = if g.insecure then some true else p.insecure := rfl
    have hca : (g.adjust p).caCert = p.caCert := rfl
    simp only [Profile.base, Profile.tls, hinsecure, hca, Option.elim_some, Option.bind_some]
    cases g.insecure <;> cases p.caCert <;> rfl

/-- Each setting is taken from the flag, else from the active profile, else from the defaults of the
configuration. They are behind a profile only: without one the time to wait is a fixed one, and
certificates are checked against those of the system. -/
theorem settings_precedence (h : g.settings c s path = .ok r) :
    (r.timeoutMs = Profile.millis (g.timeout.getD
      ((c.profile? (g.profileName c)).elim standardWait fun p =>
        p.timeout.getD c.defaults.timeout))) ∧
    (r.tls = .acceptInvalid ↔ g.insecure = true ∨ ∃ p, c.profile? (g.profileName c) = some p ∧
      (p.insecure = some true ∨ p.insecure = none ∧ c.defaults.insecure = true)) ∧
    (r.tls ≠ .acceptInvalid →
      r.tls = ((c.profile? (g.profileName c)).bind Profile.caCert).elim .systemDefaults .customCa) ∧
    (∃ text, (g.controller <|> (c.profile? (g.profileName c)).map Profile.controller) = some text ∧
      Url.read text = .ok r.url) ∧
    (r.username.isSome ↔ r.password.isSome) := by
  obtain ⟨text, url, htext, hurl, user, password, rfl, hboth⟩ := isLogin_settings h
  have hbase : (g.base c url).url = url := by
    rw [base]
    split <;> rfl
  have htls := tls_base g c url
  refine ⟨timeoutMs_base g c url, ?_, fun hchecked => ?_, ⟨text, htext, by rwa [hbase]⟩, hboth⟩
  · rw [← unchecked_iff, htls]
    split_ifs with hunchecked
    · exact iff_of_true rfl hunchecked
    · exact iff_of_false (trusted_ne g c) hunchecked
  · refine htls.trans (if_neg fun hunchecked => hchecked (htls.trans (if_pos hunchecked)))

def guardedProfile : Profile :=
  { Profile.empty with
    controller := "http://odl:8181"
    caCert := some "ca.pem"
    insecure := some false }

def laxDefaults : Defaults := ⟨"table", "auto", true, 5⟩

def guardedConfig : Config := ⟨some "default", laxDefaults, [("default", guardedProfile)]⟩

theorem guarded_store_checked :
    ∃ r, noFlags.settings guardedConfig ⟨[], []⟩ "config.toml" = .ok r ∧
      r.timeoutMs = 5000 ∧ r.tls = .customCa "ca.pem" := by
  obtain ⟨url, hurl⟩ := exists_openUrl
  have hactive : guardedConfig.profile? (noFlags.profileName guardedConfig) =
      some guardedProfile := rfl
  have hprofile := Profile.settings_eq (p := guardedProfile) hurl "default" laxDefaults ⟨[], []⟩
  have hsettings : noFlags.settings guardedConfig ⟨[], []⟩ "config.toml" =
      .ok (guardedProfile.base laxDefaults url) :=
    (settings_of_profile hactive "config.toml").trans
      (congrArg (Except.mapError Error.ofConfig) hprofile)
  obtain ⟨htimeout, hunchecked, hchecked, -, -⟩ := settings_precedence hsettings
  refine ⟨_, hsettings, htimeout, hchecked fun hlax => ?_⟩
  rcases hunchecked.1 hlax with hflag | ⟨p, hp, hinsecure⟩
  · cases hflag
  · cases hp
    rcases hinsecure with hinsecure | ⟨hinsecure, -⟩ <;> cases hinsecure

/-- Without a profile the defaults of the configuration are not looked at. -/
theorem defaults_ignored :
    let g : Globals := { noFlags with controller := some "http://odl:8181" }
    let c : Config := ⟨some "default", laxDefaults, []⟩
    (Options.read [] ["--controller", "http://odl:8181", "mappings", "list"]).map
        Options.globals = .ok g ∧
      Config.load (some "[defaults]\ninsecure = true\ntimeout = 5\n") [] = .ok c ∧
      ∃ r, g.settings c ⟨[], []⟩ "config.toml" = .ok r ∧
        r.timeoutMs ≠ Profile.millis (g.timeout.getD c.defaults.timeout) ∧
        c.defaults.insecure = true ∧ r.tls ≠ .acceptInvalid := by
  intro g c
  obtain ⟨url, hurl⟩ := exists_openUrl
  have hsettings : g.settings c ⟨[], []⟩ "config.toml" = .ok (g.flagBase url) := by
    change g.flagSettings "default" "config.toml" = _
    rw [flagSettings]
    simp only [g, hurl]
    rfl
  have htimeout : (g.flagBase url).timeoutMs = 30000 := rfl
  have htls : (g.flagBase url).tls = .systemDefaults := rfl
  refine ⟨rfl, by decide +kernel, _, hsettings, ?_, rfl, ?_⟩
  · rw [htimeout]
    decide
  · rw [htls]
    exact Tls.noConfusion

end Cli.Globals

end EidMap
