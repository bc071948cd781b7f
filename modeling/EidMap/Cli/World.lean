import EidMap.Cli.Settings
import EidMap.Config.File
import EidMap.Table.Status

/-!
What a run of the program finds and what it leaves: the environment, stored passwords, files, the
file of the configuration and the network, then what was printed and how the run ended. The banner of a table is printed after a change: red for
an error, green for a success, dim for all else, where colors are wanted.
-/

namespace EidMap.Cli

structure World where
  environment : Environment
  keyring : List (String × String)
  files : Files
  configPath : String
  configFile : Option String
  network : Rpc.Network

namespace World

def secrets (w : World) : Secrets := ⟨w.environment, w.keyring⟩

def config (w : World) : Config := Config.loadOrBuiltIn w.configFile w.environment

end World

structure Printed where
  stdout : String
  stderr : String
deriving DecidableEq

namespace Printed

def nothing : Printed := ⟨"", ""⟩

def line (s : String) : String := s ++ "\n"

/-- A result, which a quiet run or an empty text leaves out. -/
def result (g : Globals) (s : String) : Printed :=
  if g.quiet || s.isEmpty then nothing else ⟨line s, ""⟩

def message (s : String) : Printed := ⟨"", line s⟩

end Printed

/-- Only a terminal gets colors unasked, and a run has none. -/
def Color.isOn : Color → Bool
  | .always => true
  | .auto | .never => false

def painted (on off text : String) : String := "\x1b[" ++ on ++ "m" ++ text ++ "\x1b[" ++ off ++ "m"

def colored (s : Status) : String :=
  match s with
  | .loadError _ | .operationFailed .. => painted "31" "39" s.text
  | .operationSucceeded _ => painted "32" "39" s.text
  | .idle | .loading | .loaded => painted "2" "0" s.text

def banner (g : Globals) (s : Status) : Printed :=
  if g.quiet || !s.isVisible 0 then .nothing
  else .message (if g.color.isOn then colored s else s.text)

structure Run where
  printed : Printed
  outcome : Except Error Unit
  world : World

namespace Run

def done (p : Printed) (w : World) : Run := ⟨p, .ok (), w⟩

def failed (e : Error) (w : World) : Run := ⟨.nothing, .error e, w⟩

end Run

end EidMap.Cli
