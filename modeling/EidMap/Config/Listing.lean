import EidMap.Config.Basic

/-!
A configuration as it is shown to a reader: like the file that holds it, but with texts that are only
put between quotes.
-/

namespace EidMap.Config

def textLine (name value : String) : String := name ++ " = \"" ++ value ++ "\""

def truthLine (name : String) (value : Bool) : String :=
  name ++ " = " ++ if value then "true" else "false"

def numberLine (name : String) (value : UInt64) : String :=
  name ++ " = " ++ Text.natText value.toNat

def optionalLine {α : Type} (line : String → α → String) (name : String) (value : Option α) :
    List String :=
  (value.map (line name)).toList

def defaultsLines (d : Defaults) : List String :=
  ["", "[defaults]", textLine "output" d.output, textLine "color" d.color,
    truthLine "insecure" d.insecure, numberLine "timeout" d.timeout]

def profileLines (name : String) (p : Profile) : List String :=
  ["", "[profiles." ++ name ++ "]", textLine "controller" p.controller] ++
    optionalLine textLine "username" p.username ++ optionalLine textLine "password" p.password ++
    optionalLine textLine "password_env" p.passwordEnv ++
    optionalLine textLine "ca_cert" p.caCert ++ optionalLine truthLine "insecure" p.insecure ++
    optionalLine numberLine "timeout" p.timeout

def listing (c : Config) : String :=
  String.intercalate "\n"
    (optionalLine textLine "default_profile" c.defaultProfile ++ defaultsLines c.defaults ++
      c.profiles.flatMap fun (name, p) => profileLines name p)

end EidMap.Config
