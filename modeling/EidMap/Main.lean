import EidMap.Cli.Run
import EidMap.Config.Environment

/-!
The program: it gathers what a run needs, runs the command line and carries out what is left. No
network can be reached from here, so every request is refused.
-/

namespace EidMap.Main

def watched : List String :=
  ["HOME", "XDG_CONFIG_HOME", "LISPMAP_DEFAULT_PROFILE", "LISPMAP_DEFAULTS__OUTPUT",
    "LISPMAP_DEFAULTS__COLOR", "LISPMAP_DEFAULTS__INSECURE", "LISPMAP_DEFAULTS__TIMEOUT"] ++
    (Cli.Parameter.key :: Cli.Parameter.globals).filterMap Cli.Parameter.envName

def readVariables (names : List String) : IO Environment :=
  names.filterMapM fun name => do return (← IO.getEnv name).map fun value => (name, value)

def readFile? (path : String) : IO (Option String) := do
  try return some (← IO.FS.readFile path) catch _ => return none

def namedBy (c : Config) : List String × List String :=
  (c.profiles.filterMap fun (_, p) => p.passwordEnv, c.profiles.filterMap fun (_, p) => p.caCert)

def requestFile : Except Cli.Usage Cli.Options → List String
  | .ok ⟨_, .store (.writeMapping _ m)⟩ => m.fromFile.toList
  | _ => []

def gather (args : List String) : IO Cli.World := do
  let env ← readVariables watched
  let configPath := Config.filePath env
  let configFile ← readFile? configPath
  let (passwords, certificates) := namedBy (Config.loadOrBuiltIn configFile env)
  let names := certificates ++ requestFile (Cli.Options.read env args)
  let files ← names.filterMapM fun name => do
    return (← readFile? name).map fun text => (name, .unasked text)
  return ⟨env ++ (← readVariables passwords), [], files, configPath, configFile,
    ⟨fun _ => false, [], []⟩⟩

def finish (before : Cli.World) (r : Cli.Run) : IO UInt32 := do
  IO.print r.printed.stdout
  IO.eprint r.printed.stderr
  match r.world.configFile with
  | some text =>
    if before.configFile != some text then
      IO.FS.createDirAll (Config.directory before.environment)
      IO.FS.writeFile before.configPath text
  | none => pure ()
  match r.outcome with
  | .ok () => return 0
  | .error e =>
    IO.eprintln ("Error: " ++ e.message)
    for help in e.help.toList do
      IO.eprintln help
    return UInt32.ofNat e.status.code

def run (args : List String) : IO UInt32 := do
  let world ← gather args
  match Cli.run world args with
  | .ok r => finish world r
  | .error u => return UInt32.ofNat u.exitCode

end EidMap.Main

def main (args : List String) : IO UInt32 := EidMap.Main.run args
