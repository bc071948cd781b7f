import EidMap.Config.Basic
import EidMap.Config.Environment
import EidMap.Toml.Printer
import EidMap.Toml.Reader

/-!
Loading and saving a configuration. What is loaded is the file laid over the built-in configuration,
with the environment over both; the file may be missing.
-/

namespace EidMap.Config

def fileTree : Option String → Except Error Toml
  | none => .ok (.table [])
  | some text =>
    match Toml.read? text with
    | some t => .ok t
    | none => .error .unreadable

def ofTree (t : Toml) : Except Error Config :=
  match read t with
  | .ok c => .ok c
  | .error _ => .error .unreadable

def load (file : Option String) (env : Environment) : Except Error Config := do
  let tree ← fileTree file
  ofTree ((builtIn.toToml.merge tree).merge env.settings)

def loadOrBuiltIn (file : Option String) (env : Environment) : Config :=
  match load file env with
  | .ok c => c
  | .error _ => builtIn

def save (c : Config) : Except Error String :=
  if c.fits then .ok (Toml.documentText c.toEntries) else .error .unstorable

end EidMap.Config
