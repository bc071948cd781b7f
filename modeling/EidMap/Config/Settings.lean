import EidMap.Config.Basic
import EidMap.Config.Environment
import EidMap.Service.Settings

/-!
From a profile to the settings of a mapping service. A password is looked for in the variable that
the profile names, in `LISPMAP_PASSWORD`, in the keyring, and last in the profile itself.
-/

namespace EidMap

structure Secrets where
  environment : Environment
  keyring : List (String × String)

namespace Config

def select (c : Config) (name : Option String) : Except Error (String × Profile) :=
  let name := name.getD c.defaultName
  match c.profile? name with
  | some p => .ok (name, p)
  | none => .error (.unknownProfile name)

end Config

namespace Profile

open Config (Error)

def password? (p : Profile) (name : String) (s : Secrets) : Option String :=
  p.passwordEnv.bind s.environment.get? <|> s.environment.get? "LISPMAP_PASSWORD" <|>
    s.keyring.lookup name <|> p.password

def resolvePassword (p : Profile) (name : String) (s : Secrets) : Except Error String :=
  match p.password? name s with
  | some password => .ok password
  | none => .error (.noCredentials name)

/-- An insecure profile checks no certificates, whatever authority it names. -/
def tls (p : Profile) (d : Defaults) : Tls :=
  if p.insecure.getD d.insecure then .acceptInvalid
  else
    match p.caCert with
    | some path => .customCa path
    | none => .systemDefaults

def millis (seconds : UInt64) : Nat := 1000 * seconds.toNat

def anonymous (p : Profile) (d : Defaults) : Except Error Settings :=
  match Url.read p.controller with
  | .error _ => .error (.invalid "controller" ("invalid URL: " ++ p.controller))
  | .ok url => .ok ⟨url, none, none, p.tls d, millis (p.timeout.getD d.timeout)⟩

def settings (p : Profile) (name : String) (d : Defaults) (s : Secrets) :
    Except Error Settings := do
  let settings ← p.anonymous d
  match p.username <|> s.environment.get? "LISPMAP_USERNAME" with
  | none => return settings
  | some user =>
    return { settings with username := some user, password := some (← p.resolvePassword name s) }

end Profile

end EidMap
