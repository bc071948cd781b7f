import EidMap.Cli.Setup
import EidMap.Proofs.Config.Loading

/-!
# Changes to the configuration

A command that changes the configuration either fails and leaves everything as it was, or writes a
file from which the changed configuration is loaded. What it changes is the configuration of the
run: that of the file under the environment, or the built-in one where those give none. Any
configuration is loaded again as it was saved, if its timeouts fit into the file.
-/

namespace EidMap.Cli

open Config (Complete)

def settingName (key : String) : String :=
  if key = "password-env" then "password_env" else if key = "ca-cert" then "ca_cert" else key

def setting? (key value : String) : Option Toml :=
  if key = "insecure" then (truth? value).map .boolean
  else if key = "timeout" then (Text.uint64? value.toList).map .ofUInt64
  else some (.string value)

structure Sets (key value : String) (before after : Profile) : Prop where
  named : ∃ v, setting? key value = some v ∧
    Toml.lookup (settingName key) after.toEntries = some v
  others : ∀ name, name ≠ settingName key →
    Toml.lookup name after.toEntries = Toml.lookup name before.toEntries

theorem sets_of_lookup {p q : Profile} {key value : String} (name : String) {v : Toml}
    (hname : settingName key = name) (hv : setting? key value = some v)
    (h : ∀ n, Toml.lookup n q.toEntries =
      if n = name then some v else Toml.lookup n p.toEntries) : Sets key value p q := by
  subst hname
  exact ⟨⟨v, hv, by rw [h, if_pos rfl]⟩, fun n hn => by rw [h, if_neg hn]⟩

theorem sets_of_setValue {p q : Profile} {key value : String} (h : setValue p key value = .ok q) :
    Sets key value p q := by
  unfold setValue at h
  -- One case for each key that is known; two of the settings have two keys.
  split at h
  · split at h <;> cases h
    exact sets_of_lookup "controller" rfl rfl fun n => by grind [Profile.lookup_toEntries]
  · cases h
    exact sets_of_lookup "username" rfl rfl fun n => by grind [Profile.lookup_toEntries]
  · cases h
    exact sets_of_lookup "password_env" rfl rfl fun n => by grind [Profile.lookup_toEntries]
  · cases h
    exact sets_of_lookup "password_env" rfl rfl fun n => by grind [Profile.lookup_toEntries]
  · cases h
    exact sets_of_lookup "ca_cert" rfl rfl fun n => by grind [Profile.lookup_toEntries]
  · cases h
    exact sets_of_lookup "ca_cert" rfl rfl fun n => by grind [Profile.lookup_toEntries]
  · split at h
    · rename_i b hb
      cases h
      have hv : setting? "insecure" value = some (.boolean b) := by simp [setting?, hb]
      exact sets_of_lookup "insecure" rfl hv fun n => by grind [Profile.lookup_toEntries]
    · cases h
  · split at h
    · rename_i t ht
      cases h
      have hv : setting? "timeout" value = some (.ofUInt64 t) := by simp [setting?, ht]
      exact sets_of_lookup "timeout" rfl hv fun n => by grind [Profile.lookup_toEntries]
    · cases h
  · cases h

/-- A change to the configuration that a command asks for. -/
inductive Edit
  | set (key value : String)
  | use (name : String)

namespace Edit

def command : Edit → ConfigCommand
  | set key value => .set key value
  | use name => .use name

/-- The configurations differ only in what the change is about: one setting of the active profile,
which may be a new one, or the name of the default profile, which has to be there. -/
def Changes (active : String) (before after : Config) : Edit → Prop
  | set key value =>
    after.defaultProfile = before.defaultProfile ∧ after.defaults = before.defaults ∧
      (∀ name, name ≠ active → after.profile? name = before.profile? name) ∧
      ∃ p, after.profile? active = some p ∧
        Sets key value ((before.profile? active).getD .empty) p
  | use name =>
    after.defaultProfile = some name ∧ after.defaults = before.defaults ∧
      after.profiles = before.profiles ∧ (before.profile? name).isSome

end Edit

theorem save_cases (w : World) {c : Config} (h : Complete c) (message : String) :
    (∃ err, (save w c message).outcome = .error err ∧ (save w c message).world = w) ∨
      ∃ text, (save w c message).outcome = .ok () ∧
        (save w c message).world = { w with configFile := some text } ∧
        ∀ env : Environment, env.Silent → Config.load (some text) env = .ok c := by
  rw [save]
  split
  · rename_i text htext
    exact .inr ⟨text, rfl, rfl, fun env silent => Config.load_save h htext silent⟩
  · exact .inl ⟨_, rfl, rfl⟩

theorem changes_setProfile (c : Config) {active key value : String} {p : Profile}
    (h : setValue ((c.profile? active).getD .empty) key value = .ok p) :
    Edit.Changes active c (c.setProfile active p) (.set key value) := by
  refine ⟨rfl, rfl, fun name hne => ?_, p, ?_, sets_of_setValue h⟩
  · rw [Config.profile?, Config.setProfile, Config.find?_insert, if_neg hne]
    rfl
  · rw [Config.profile?, Config.setProfile, Config.find?_insert, if_pos rfl]

theorem complete_config (w : World) : Complete w.config :=
  Config.complete_loadOrBuiltIn w.configFile w.environment

theorem config_of_silent {w : World} (silent : w.environment.Silent) :
    w.config = Config.loadOrBuiltIn w.configFile [] := by
  rw [World.config, Config.loadOrBuiltIn, Config.load_of_silent w.configFile silent]
  rfl

/-- A change that fails leaves everything as it was. One that succeeds writes the file, from which
the configuration of the run is then loaded with that change and no other. -/
theorem run_edit (w : World) (g : Globals) (e : Edit) :
    ((∃ err, (e.command.run w g).outcome = .error err ∧ (e.command.run w g).world = w) ∨
      ∃ text after, (e.command.run w g).outcome = .ok () ∧
        (e.command.run w g).world = { w with configFile := some text } ∧
        e.Changes (g.profileName w.config) w.config after ∧
        ∀ env : Environment, env.Silent → Config.load (some text) env = .ok after) ∧
    (∀ c, w.environment.Silent → Config.load w.configFile [] = .ok c → w.config = c) ∧
    (∀ err, Config.load w.configFile w.environment = .error err → w.config = .builtIn) := by
  have hcomplete := complete_config w
  refine ⟨?_, fun c silent hload => ?_, fun err hload => ?_⟩
  · cases e with
    | set key value =>
      simp only [Edit.command, ConfigCommand.run]
      split
      · exact .inl ⟨_, rfl, rfl⟩
      · rename_i p hset
        refine (save_cases w (hcomplete.setProfile (g.profileName w.config) p) _).imp_right ?_
        rintro ⟨text, hdone, hworld, hload⟩
        exact ⟨text, _, hdone, hworld, changes_setProfile w.config hset, hload⟩
    | use name =>
      simp only [Edit.command, ConfigCommand.run]
      split
      · exact .inl ⟨_, rfl, rfl⟩
      · rename_i p hknown
        refine (save_cases w (hcomplete.use name) _).imp_right ?_
        rintro ⟨text, hdone, hworld, hload⟩
        exact ⟨text, { w.config with defaultProfile := some name }, hdone, hworld,
          ⟨rfl, rfl, rfl, by rw [hknown]; rfl⟩, hload⟩
  · rw [config_of_silent silent, Config.loadOrBuiltIn, hload]
  · rw [World.config, Config.loadOrBuiltIn, hload]

def worldOf (file : String) : World :=
  ⟨[], [], [], "config.toml", some file, ⟨fun _ => false, [], []⟩⟩

def noFlags : Globals := ⟨none, none, none, none, .table, .auto, false, false, false, none⟩

def labFile : String :=
  "default_profile = \"lab\"\n\n[profiles.lab]\ncontroller = \"http://odl:8181\"\n"

theorem lab_profile_kept :
    ∃ text after, ((Edit.set "username" "admin").command.run (worldOf labFile) noFlags).world =
        { worldOf labFile with configFile := some text } ∧
      Config.load (some text) [] = .ok after ∧
      ∃ p, after.profile? "lab" = some p ∧
        Toml.lookup "controller" p.toEntries = some (.string "http://odl:8181") ∧
        Toml.lookup "username" p.toEntries = some (.string "admin") := by
  have silent : (worldOf labFile).environment.Silent := by
    intro v hv
    cases hv
  obtain ⟨hrun, hfile, -⟩ := run_edit (worldOf labFile) noFlags (.set "username" "admin")
  have hconfig := hfile ⟨some "lab", .builtIn,
    [("lab", { Profile.empty with controller := "http://odl:8181" })]⟩ silent (by decide +kernel)
  rcases hrun with ⟨err, hfailed, -⟩ | ⟨text, after, -, hworld, hchanges, hload⟩
  · have hdone : ((Edit.set "username" "admin").command.run (worldOf labFile) noFlags).outcome =
        .ok () := by decide +kernel
    rw [hdone] at hfailed
    cases hfailed
  · rw [hconfig] at hchanges
    obtain ⟨-, -, -, p, hp, ⟨v, hv, hnamed⟩, hothers⟩ := hchanges
    cases hv
    exact ⟨text, after, hworld, hload [] silent, p, hp, hothers "controller" (by decide), hnamed⟩

def illTypedFile : String := labFile ++ "timeout = \"5\"\n"

/-- A file that holds a profile but gives no configuration is replaced by one without the
profile. -/
theorem ill_typed_file_lost :
    Config.load (some illTypedFile) [] = .error .unreadable ∧
      ((Edit.set "username" "admin").command.run (worldOf illTypedFile) noFlags).outcome = .ok () ∧
      ∃ text, ((Edit.set "username" "admin").command.run
          (worldOf illTypedFile) noFlags).world.configFile = some text ∧
        Config.load (some text) [] = .ok ⟨some "default", .builtIn,
          [("default", { Profile.empty with username := some "admin" })]⟩ :=
  ⟨by decide +kernel, by decide +kernel,
    "default_profile = \"default\"\n\n[defaults]\noutput = \"table\"\ncolor = \"auto\"\n" ++
      "insecure = false\ntimeout = 30\n\n[profiles.default]\ncontroller = \"\"\n" ++
      "username = \"admin\"\n", by decide +kernel, by decide +kernel⟩

/-- A configuration with a default profile whose timeouts fit into the file is saved and loaded again
as it was, whatever its profiles are called and hold. If one does not fit, nothing is saved. -/
theorem saved_configuration_loaded {c : Config} (named : c.defaultProfile.isSome)
    (ordered : Config.Ordered c.profiles) (w : World) (message : String) :
    ((∀ t ∈ c.timeouts, t.toNat < Nat.pow 2 63) →
      (save w c message).outcome = .ok () ∧
      ∃ text, (save w c message).world = { w with configFile := some text } ∧
        ∀ env : Environment, env.Silent → Config.load (some text) env = .ok c) ∧
    ((∃ t ∈ c.timeouts, Nat.pow 2 63 ≤ t.toNat) →
      (∃ err, (save w c message).outcome = .error err) ∧ (save w c message).world = w) := by
  have hcomplete : Complete c := ⟨Option.isSome_iff_exists.1 named, ordered⟩
  refine ⟨fun hfits => ?_, fun ⟨t, ht, hlarge⟩ => ?_⟩
  · have hsave : c.save = .ok (Toml.documentText c.toEntries) := if_pos (Config.fits_iff.2 hfits)
    rcases save_cases w hcomplete message with ⟨err, hfailed, -⟩ | ⟨text, hdone, hworld, hload⟩
    · rw [save, hsave] at hfailed
      cases hfailed
    · exact ⟨hdone, text, hworld, hload⟩
  · have hfits : c.fits ≠ true := fun hfits =>
      Nat.not_lt.2 hlarge (Config.fits_iff.1 hfits t ht)
    have hsave : c.save = .error .unstorable := if_neg hfits
    rw [save, hsave]
    exact ⟨⟨_, rfl⟩, rfl⟩

def oddlyNamed : Config :=
  ⟨some "a.b \"c\"", .builtIn,
    [("", Profile.empty), ("a.b \"c\"", { Profile.empty with timeout := some 9223372036854775807 })]⟩

theorem oddly_named_loaded :
    ∃ text, (save (worldOf labFile) oddlyNamed "").world =
        { worldOf labFile with configFile := some text } ∧
      Config.load (some text) [] = .ok oddlyNamed := by
  have hordered : Config.Ordered oddlyNamed.profiles :=
    .cons (by decide) (List.pairwise_singleton _ _)
  obtain ⟨hsaved, -⟩ := saved_configuration_loaded (c := oddlyNamed) rfl hordered
    (worldOf labFile) ""
  obtain ⟨-, text, hworld, hload⟩ := hsaved (Config.fits_iff.1 (by decide))
  exact ⟨text, hworld, hload [] fun v hv => by cases hv⟩

end EidMap.Cli
