import EidMap.Proofs.Cli.Notice
import EidMap.Proofs.Cli.Precedence

/-!
# Mistakes of the user

A mistake in what a command line, the environment or the configuration asks for ends a run with a
status of its own. Such a run is the same on every network, and leaves the world as it was.
-/

namespace EidMap.Cli

variable {w : World} {g : Globals} {e : Error}

theorem runIn_usage {c : StoreCommand} (failed : (c.runIn w g).outcome = .error e)
    (usage : e.status = .usage) (n : Rpc.Network) :
    c.runIn { w with network := n } g = .failed e { w with network := n } := by
  have hsettings : g.settings ({ w with network := n } : World).config
      ({ w with network := n } : World).secrets ({ w with network := n } : World).configPath =
      g.settings w.config w.secrets w.configPath := rfl
  rw [StoreCommand.runIn] at failed ⊢
  rw [hsettings]
  cases h : g.settings w.config w.secrets w.configPath with
  | error e' =>
    rw [h] at failed
    cases failed
    rfl
  | ok settings =>
    rw [h] at failed
    have hconnect : (Service.new settings w.files n).connect =
        (Service.new settings w.files w.network).connect := rfl
    dsimp only at failed ⊢
    rw [hconnect]
    cases hc : (Service.new settings w.files w.network).connect with
    | error e' =>
      rw [hc] at failed
      cases failed
      rfl
    | ok u =>
      rw [hc] at failed
      dsimp only at failed ⊢
      rcases hrun : c.run g (Service.new settings w.files w.network) with ⟨e' | p, s⟩
      · rw [hrun] at failed
        cases failed
        obtain ⟨hfailed, hnetwork⟩ := noticed_run g c _ e (congrArg Prod.fst hrun) usage n
        change (c.run g (Service.new settings w.files n)).1 = _ at hfailed
        change (c.run g (Service.new settings w.files n)).2.network = _ at hnetwork
        generalize c.run g (Service.new settings w.files n) = x at hfailed hnetwork ⊢
        obtain ⟨r, s'⟩ := x
        cases hfailed
        cases hnetwork
        rfl
      · rw [hrun] at failed
        cases failed

theorem status_save (w : World) (c : Config) (message : String) :
    FailsAs (fun e : Error => e.status ≠ .usage) (save w c message).outcome := by
  rw [save, Config.save]
  split_ifs
  · exact .ok _
  · exact .error ExitStatus.noConfusion

theorem config_usage {c : ConfigCommand} (failed : (c.run w g).outcome = .error e)
    (usage : e.status = .usage) (n : Rpc.Network) :
    c.run { w with network := n } g =
      ⟨(c.run w g).printed, .error e, { w with network := n }⟩ := by
  have hconfig : ({ w with network := n } : World).config = w.config := rfl
  cases c with
  | «show» => cases failed
  | init =>
    cases failed
    rfl
  | set key value =>
    rw [ConfigCommand.run] at failed ⊢
    rw [hconfig, ConfigCommand.run]
    cases h : setValue ((w.config.profile? (g.profileName w.config)).getD .empty) key value with
    | error e' =>
      rw [h] at failed
      cases failed
      rfl
    | ok p =>
      rw [h] at failed
      exact absurd usage (status_save _ _ _ e failed)
  | profiles =>
    rw [ConfigCommand.run] at failed
    split at failed <;> cases failed
  | use name =>
    rw [ConfigCommand.run] at failed
    split at failed
    · cases failed
      cases usage
    · exact absurd usage (status_save _ _ _ e failed)
  | setPassword =>
    rw [ConfigCommand.run] at failed ⊢
    rw [hconfig, ConfigCommand.run]
    cases h : w.config.profile? (g.profileName w.config) with
    | none =>
      rw [h] at failed
      cases failed
      cases usage
    | some p =>
      rw [h] at failed
      cases failed
      rfl

theorem run_usage {c : Command} (failed : (c.run w g).outcome = .error e)
    (usage : e.status = .usage) (n : Rpc.Network) :
    c.run { w with network := n } g =
      { c.run w g with world := { w with network := n } } := by
  cases c with
  | store c =>
    have hself := runIn_usage failed usage w.network
    rw [Command.run, Command.run, runIn_usage failed usage n]
    change c.runIn w g = _ at hself
    rw [hself]
    rfl
  | config c =>
    rw [Command.run, Command.run, config_usage failed usage n, ← failed]
    rfl
  | completions shell => cases failed

/-- A command about the store that cannot be made out, or that was not confirmed. -/
inductive StoreCommand.Mistake (g : Globals) (files : Files) : StoreCommand → Prop
  | address {t : Topic} {eid : String} {e : Error} (unreadable : readAddress "eid" eid = .error e) :
    Mistake g files (.lookup t eid)
  | mapping {c : Change} {m : MappingWrite} {e : Error} (unreadable : m.request files = .error e) :
    Mistake g files (.writeMapping c m)
  | key {c : Change} {k : KeyWrite} {e : Error} (unreadable : k.request = .error e) :
    Mistake g files (.writeKey c k)
  | deletion {t : Topic} {eidUri : String} (unconfirmed : g.yes = false) :
    Mistake g files (.delete t eidUri)

/-- A command that cannot be made out or was not confirmed, or whose store is at no URL. -/
inductive Mistake (w : World) (g : Globals) : Command → Prop
  | url {c : StoreCommand} {text : String} {e : Url.ReadError}
    (told : g.controllerText? w.config = some text) (unreadable : Url.read text = .error e) :
    Mistake w g (.store c)
  | store {c : StoreCommand} (mistake : c.Mistake g w.files) : Mistake w g (.store c)
  | setting {key value : String} {e : Error}
    (unreadable : setValue ((w.config.profile? (g.profileName w.config)).getD .empty) key value =
      .error e) : Mistake w g (.config (.set key value))

inductive StoreCommand.FileMissing (files : Files) : StoreCommand → Error → Prop
  | intro {c : Change} {m : MappingWrite} {name reason : String} (named : m.fromFile = some name)
    (unread : files.read name = .error reason) : FileMissing files (.writeMapping c m) (.io reason)

/-- What is said if a store cannot be asked for want of a profile, a URL or a password. -/
inductive Unsettled : Error → Prop
  | profile (name available : String) : Unsettled (.profileNotFound name available)
  | controller (path : String) : Unsettled (.noConfig path)
  | password (profile : String) : Unsettled (.noCredentials profile)

inductive Hindered (w : World) (g : Globals) : Command → Error → Prop
  | settings {c : StoreCommand} {e : Error}
    (failed : g.settings w.config w.secrets w.configPath = .error e) (unsettled : Unsettled e) :
    Hindered w g (.store c) e
  | certificates {c : StoreCommand} {settings : Settings} {e : ServiceError}
    (settled : g.settings w.config w.secrets w.configPath = .ok settings)
    (failed : (Service.new settings w.files w.network).connect = .error e) :
    Hindered w g (.store c) (.ofService e)
  | file {c : StoreCommand} {e : Error} (missing : c.FileMissing w.files e) :
    Hindered w g (.store c) e

theorem usage_readAddress (field text : String) :
    FailsAs (fun e : Error => e.status = .usage) (readAddress field text) := by
  rw [readAddress]
  split
  · exact .ok _
  · exact .error rfl

theorem usage_ofFlags (m : MappingWrite) :
    FailsAs (fun e : Error => e.status = .usage) m.ofFlags := by
  rw [MappingWrite.ofFlags]
  split
  · exact .error rfl
  · refine (usage_readAddress _ _).bind fun eid => ?_
    refine (FailsAs.mapM (fun rloc => ?_) m.rlocs).bind fun locators => .ok _
    exact (usage_readAddress _ _).bind fun rloc => .ok _

theorem usage_key (k : KeyWrite) : FailsAs (fun e : Error => e.status = .usage) k.request := by
  refine (usage_readAddress _ _).bind fun eid => ?_
  have hsecret : FailsAs (fun e : Error => e.status = .usage) k.secret := by
    rw [KeyWrite.secret]
    split
    · exact .error rfl
    · exact .error rfl
    · exact .ok _
  exact hsecret.bind fun secret => .ok _

theorem usage_setValue (p : Profile) (key value : String) :
    FailsAs (fun e : Error => e.status = .usage) (setValue p key value) := by
  unfold setValue
  split <;> try split
  all_goals first | exact .ok _ | exact .error rfl

theorem mapping_request_error {m : MappingWrite} {files : Files} {e : Error}
    (failed : m.request files = .error e) (c : Change) :
    e.status = .usage ∨ StoreCommand.FileMissing files (.writeMapping c m) e := by
  rw [MappingWrite.request] at failed
  split at failed
  · rename_i name hname
    rw [MappingWrite.ofFile] at failed
    split at failed
    · rename_i reason hread
      cases failed
      exact .inr (.intro hname hread)
    · split at failed <;> cases failed
      exact .inl rfl
  · exact .inl (usage_ofFlags m e failed)

theorem anonymous_error (p : Profile) (d : Defaults) :
    FailsAs (fun e => (Error.ofConfig e).status = .usage ∨ Unsettled (.ofConfig e))
      (p.anonymous d) := by
  rw [Profile.anonymous]
  split
  · exact .error (.inl rfl)
  · exact .ok _

theorem profile_error (p : Profile) (name : String) (d : Defaults) (s : Secrets) :
    FailsAs (fun e => (Error.ofConfig e).status = .usage ∨ Unsettled (.ofConfig e))
      (p.settings name d s) := by
  refine (anonymous_error p d).bind fun settings => ?_
  split
  · exact .ok _
  · rw [Profile.resolvePassword]
    split
    · exact .ok _
    · exact .error (.inr (.password name))

theorem profileSettings_error (g : Globals) (p : Profile) (name : String) (d : Defaults)
    (s : Secrets) :
    FailsAs (fun e => (Error.ofConfig e).status = .usage ∨ Unsettled (.ofConfig e))
      (g.profileSettings p name d s) := by
  rw [Globals.profileSettings]
  split
  · exact profile_error _ name d s
  · refine (profile_error _ name d s).bind fun settings => ?_
    split <;> exact .ok _

theorem flagSettings_error (g : Globals) (name path : String) :
    FailsAs (fun e : Error => e.status = .usage ∨ Unsettled e) (g.flagSettings name path) := by
  rw [Globals.flagSettings]
  split
  · exact .error (.inr (.controller path))
  · split
    · exact .error (.inl rfl)
    · dsimp only
      split
      · exact .ok _
      · exact .error (.inr (.password name))
      · exact .ok _

theorem settings_error (g : Globals) (c : Config) (s : Secrets) (path : String) :
    FailsAs (fun e : Error => e.status = .usage ∨ Unsettled e) (g.settings c s path) := by
  cases hactive : c.profile? (g.profileName c) with
  | some p =>
    rw [Globals.settings_of_profile hactive]
    exact (profileSettings_error g p _ _ _).mapError fun _ => id
  | none =>
    cases hnamed : g.profile with
    | some name =>
      simp only [Globals.settings, hactive, hnamed]
      exact .error (.inr (.profile _ _))
    | none =>
      simp only [Globals.settings, hactive, hnamed]
      exact flagSettings_error g _ path

theorem StoreCommand.Mistake.failed {c : StoreCommand} {s : Service} (h : c.Mistake g s.files) :
    ∃ e, c.run g s = (.error e, s) ∧ (e.status = .usage ∨ c.FileMissing s.files e) := by
  cases h with
  | @address t eid e unreadable =>
    refine ⟨e, ?_, .inl (usage_readAddress _ _ e unreadable)⟩
    cases t <;> simp only [run, Rows.ask, unreadable]
  | @mapping c m e unreadable =>
    refine ⟨e, ?_, mapping_request_error unreadable c⟩
    simp only [run, unreadable]
    rfl
  | @key c k e unreadable =>
    refine ⟨e, ?_, .inl (usage_key k e unreadable)⟩
    simp only [run, unreadable]
    rfl
  | @deletion t eidUri unconfirmed =>
    refine ⟨.unconfirmed ((rowsOf t).question eidUri), ?_, .inl rfl⟩
    cases t <;> simp only [run, Rows.delete, unconfirmed] <;> rfl

theorem StoreCommand.runIn_failed {c : StoreCommand}
    (h : ∀ settings, g.settings w.config w.secrets w.configPath = .ok settings →
      c.Mistake g w.files) :
    ∃ e, c.runIn w g = .failed e w ∧ (e.status = .usage ∨ Hindered w g (.store c) e) := by
  rw [runIn]
  cases hsettings : g.settings w.config w.secrets w.configPath with
  | error e =>
    refine ⟨e, rfl, (settings_error _ _ _ _ e hsettings).imp_right ?_⟩
    exact fun unsettled => .settings hsettings unsettled
  | ok settings =>
    dsimp only
    cases hconnect : (Service.new settings w.files w.network).connect with
    | error e => exact ⟨_, rfl, .inr (.certificates hsettings hconnect)⟩
    | ok u =>
      obtain ⟨e, hrun, hkind⟩ := (h settings hsettings).failed
        (s := Service.new settings w.files w.network)
      refine ⟨e, ?_, hkind.imp_right .file⟩
      dsimp only
      rw [hrun]
      rfl

theorem Mistake.failed {c : Command} (h : Mistake w g c) :
    ∃ e, c.run w g = .failed e w ∧ (e.status = .usage ∨ Hindered w g c e) := by
  cases h with
  | url told unreadable =>
    refine StoreCommand.runIn_failed fun settings hsettings => ?_
    obtain ⟨text, url, htold, hurl, -⟩ := Globals.isLogin_settings hsettings
    cases told.symm.trans htold
    cases unreadable.symm.trans hurl
  | store mistake => exact StoreCommand.runIn_failed fun _ _ => mistake
  | @setting key value e unreadable =>
    refine ⟨e, ?_, .inl (usage_setValue _ key value e unreadable)⟩
    simp only [Command.run, ConfigCommand.run, unreadable]

/-- A run that ends with the status of a mistake would have ended so on every network, and leaves
the world as it was: nothing is sent, and the file of the configuration is the same. Whatever cannot
be made out ends a run in this way, unless something that the run needs is not there either. A
command line that cannot be read comes to no run at all. -/
theorem usage_error_without_effect (w : World) (args : List String) :
    (∀ r e, run w args = .ok r → r.outcome = .error e → e.status = .usage →
      r.world = w ∧ ∀ n : Rpc.Network,
        run { w with network := n } args = .ok { r with world := { w with network := n } }) ∧
    ∀ o, Options.read w.environment args = .ok o → Mistake w o.globals o.command →
      ∃ r e, run w args = .ok r ∧ r.outcome = .error e ∧ r.world = w ∧
        (e.status = .usage ∨ Hindered w o.globals o.command e) := by
  refine ⟨fun r e hrun failed usage => ?_, fun o hread mistake => ?_⟩
  · simp only [run] at hrun ⊢
    cases hread : Options.read w.environment args with
    | error u =>
      rw [hread] at hrun
      cases hrun
    | ok o =>
      rw [hread] at hrun
      cases hrun
      have hnoticed := run_usage failed usage
      refine ⟨?_, fun n => congrArg Except.ok (hnoticed n)⟩
      exact congrArg Run.world (hnoticed w.network)
  · obtain ⟨e, hfailed, hkind⟩ := mistake.failed
    refine ⟨.failed e w, e, ?_, rfl, rfl, hkind⟩
    simp only [run, hread, hfailed]

def openWorld : World := ⟨[], [], [], "config.toml", none, ⟨fun _ => true, [], []⟩⟩

def openFlags : Globals := { noFlags with controller := some "http://odl:8181" }

theorem unconfirmed_deletion_refused :
    let args := ["--controller", "http://odl:8181", "mappings", "delete", "ipv4:10.0.0.1"]
    ∃ r e, run openWorld args = .ok r ∧ r.outcome = .error e ∧ e.status = .usage ∧
      r.world = openWorld := by
  intro args
  have hread : Options.read [] args =
      .ok ⟨openFlags, .store (.delete .mappings "ipv4:10.0.0.1")⟩ := rfl
  obtain ⟨huntouched, hnoticed⟩ := usage_error_without_effect openWorld args
  obtain ⟨r, e, hrun, hfailed, -, husage⟩ := hnoticed _ hread (.store (.deletion rfl))
  have hstatus : e.status = .usage := by
    refine husage.resolve_right fun hindered => ?_
    obtain ⟨url, hurl⟩ := Globals.exists_openUrl
    have hload : Config.load none [] = .ok .builtIn := by decide +kernel
    have hconfig : openWorld.config = .builtIn := by
      change Config.loadOrBuiltIn none [] = .builtIn
      rw [Config.loadOrBuiltIn, hload]
    have hsettings : openFlags.settings openWorld.config openWorld.secrets openWorld.configPath =
        .ok (openFlags.flagBase url) := by
      rw [hconfig]
      change openFlags.flagSettings "default" "config.toml" = _
      rw [Globals.flagSettings]
      simp only [openFlags, hurl]
      rfl
    cases hindered with
    | settings failed => cases hsettings.symm.trans failed
    | certificates settled failed =>
      cases hsettings.symm.trans settled
      cases failed
    | file missing => cases missing
  exact ⟨r, e, hrun, hfailed, hstatus, (huntouched r e hrun hfailed hstatus).1⟩

end EidMap.Cli
