import EidMap.Cli.Error
import EidMap.Cli.Options
import EidMap.Config.Settings

/-!
How the service of a run is reached. The flags prevail over the active profile; without a profile
they have to say everything themselves.
-/

namespace EidMap

namespace Config

def profileNames (c : Config) : String :=
  if c.profiles.isEmpty then "(none)" else String.intercalate ", " (c.profiles.map Prod.fst)

end Config

namespace Cli.Globals

def profileName (g : Globals) (c : Config) : String := g.profile.getD c.defaultName

def adjust (g : Globals) (p : Profile) : Profile :=
  { p with
    controller := g.controller.getD p.controller
    username := g.username <|> p.username
    insecure := if g.insecure then some true else p.insecure
    timeout := g.timeout <|> p.timeout }

/-- The settings of a profile under the flags. A password among them is used for the user of the
profile, who then needs no other. -/
def profileSettings (g : Globals) (p : Profile) (name : String) (d : Defaults) (s : Secrets) :
    Except Config.Error Settings := do
  let p := g.adjust p
  match g.password with
  | none => p.settings name d s
  | some password =>
    let settings ← { p with username := none }.settings name d s
    match p.username with
    | none => return settings
    | some user => return { settings with username := some user, password := some password }

def standardWait : UInt64 := 30

def flagTls (g : Globals) : Tls := if g.insecure then .acceptInvalid else .systemDefaults

def flagSettings (g : Globals) (name configPath : String) : Except Error Settings :=
  match g.controller with
  | none => .error (.noConfig configPath)
  | some controller =>
    match Url.read controller with
    | .error _ => .error (.invalid "controller" ("invalid URL: " ++ controller))
    | .ok url =>
      let settings : Settings :=
        ⟨url, none, none, g.flagTls, Profile.millis (g.timeout.getD standardWait)⟩
      match g.username, g.password with
      | none, _ => .ok settings
      | some _, none => .error (.noCredentials name)
      | some user, some password =>
        .ok { settings with username := some user, password := some password }

/-- The settings of the active profile under the flags, or those of the flags; a profile that a flag
names has to exist. -/
def settings (g : Globals) (c : Config) (s : Secrets) (configPath : String) :
    Except Error Settings :=
  let name := g.profileName c
  match c.profile? name, g.profile with
  | some p, _ =>
    match g.profileSettings p name c.defaults s with
    | .ok settings => .ok settings
    | .error e => .error (.ofConfig e)
  | none, some _ => .error (.profileNotFound name c.profileNames)
  | none, none => g.flagSettings name configPath

end Cli.Globals

end EidMap
