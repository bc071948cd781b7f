import EidMap.Cli.World
import EidMap.Config.Listing
import EidMap.Output.Format

/-!
Commands about the configuration. A change is made to the configuration that was loaded and is saved
as a whole; a command that fails leaves the file as it was. Nobody can be asked in a run without a
terminal, so the commands that ask always fail.
-/

namespace EidMap.Cli

def truth? (s : String) : Option Bool :=
  match s with
  | "true" => some true
  | "false" => some false
  | _ => none

def setValue (p : Profile) (key value : String) : Except Error Profile :=
  match key with
  | "controller" =>
    match Url.read value with
    | .ok _ => .ok { p with controller := value }
    | .error e => .error (.invalid "controller" ("invalid URL: " ++ e.message))
  | "username" => .ok { p with username := some value }
  | "password_env" | "password-env" => .ok { p with passwordEnv := some value }
  | "ca_cert" | "ca-cert" => .ok { p with caCert := some value }
  | "insecure" =>
    match truth? value with
    | some b => .ok { p with insecure := some b }
    | none => .error (.invalid "insecure" "must be 'true' or 'false'")
  | "timeout" =>
    match Text.uint64? value.toList with
    | some n => .ok { p with timeout := some n }
    | none => .error (.invalid "timeout" "must be a number (seconds)")
  | other =>
    .error (.invalid other ("unknown config key '" ++ other ++ "'. Valid keys: controller, " ++
      "username, password_env, ca_cert, insecure, timeout"))

def cannotAsk : Error :=
  .invalid "interactive" "prompt failed: No such device or address (os error 6)"

def configView (path : String) : Output.View Config :=
  ⟨[], fun _ => [], Config.listing, Config.toJson, fun _ => path⟩

def profileLine (c : Config) (name : String) : String :=
  Printed.line (if name = c.defaultName then name ++ " *" else name)

def save (w : World) (c : Config) (message : String) : Run :=
  match c.save with
  | .ok text => .done (.message message) { w with configFile := some text }
  | .error e => .failed (.ofConfig e) w

namespace ConfigCommand

def run (w : World) (g : Globals) : ConfigCommand → Run
  | .show =>
    .done (.result g (g.output.single (configView w.configPath) w.config.redacted)) w
  | .set key value =>
    let c := w.config
    let name := g.profileName c
    match setValue ((c.profile? name).getD .empty) key value with
    | .error e => .failed e w
    | .ok p => save w (c.setProfile name p) ("✓ Set " ++ key ++ " on profile '" ++ name ++ "'")
  | .profiles =>
    let c := w.config
    if c.profiles.isEmpty then
      .done (.message "No profiles configured. Run: lispmap config init") w
    else .done ⟨String.join (c.profiles.map fun (name, _) => profileLine c name), ""⟩ w
  | .use name =>
    let c := w.config
    match c.profile? name with
    | none => .failed (.profileNotFound name c.profileNames) w
    | some _ =>
      save w { c with defaultProfile := some name } ("✓ Default profile set to '" ++ name ++ "'")
  | .setPassword =>
    let c := w.config
    let name := g.profileName c
    match c.profile? name with
    | none => .failed (.profileNotFound name c.profileNames) w
    | some _ => .failed cannotAsk w
  | .init =>
    ⟨.message ("lispmap configuration wizard\n   Config path: " ++ w.configPath ++ "\n"),
      .error cannotAsk, w⟩

end ConfigCommand

end EidMap.Cli
