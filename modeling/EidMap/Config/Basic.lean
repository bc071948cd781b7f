import EidMap.Toml.Basic

/-!
Configuration: defaults and named profiles, each of which says how to reach one mapping service. The
profiles are kept in the order of their names. A configuration is read from a tree of settings or
from JSON and written as either; what a profile does not set is left out of the settings.
-/

namespace EidMap

structure Defaults where
  output : String
  color : String
  insecure : Bool
  timeout : UInt64
deriving DecidableEq

structure Profile where
  controller : String
  username : Option String
  password : Option String
  /-- The name of an environment variable that holds the password. -/
  passwordEnv : Option String
  caCert : Option String
  insecure : Option Bool
  timeout : Option UInt64
deriving DecidableEq

structure Config where
  defaultProfile : Option String
  defaults : Defaults
  profiles : List (String × Profile)
deriving DecidableEq

def Defaults.builtIn : Defaults := ⟨"table", "auto", false, 30⟩

def Profile.empty : Profile := ⟨"", none, none, none, none, none, none⟩

namespace Config

inductive Error
  | invalid (field reason : String)
  | noCredentials (profile : String)
  | unknownProfile (name : String)
  | unstorable
  | unreadable
deriving DecidableEq

def Error.message : Error → String
  | .invalid field reason => "invalid " ++ field ++ ": " ++ reason
  | .noCredentials profile => "no password configured for profile '" ++ profile ++ "'"
  | .unknownProfile name => "profile '" ++ name ++ "' not found"
  | .unstorable => "failed to serialize config: out-of-range value for u64 type"
  | .unreadable => "config loading failed"

def builtIn : Config := ⟨some "default", .builtIn, []⟩

def find? (name : String) : List (String × Profile) → Option Profile
  | [] => none
  | (k, p) :: ps => if k = name then some p else find? name ps

def insert (name : String) (p : Profile) : List (String × Profile) → List (String × Profile)
  | [] => [(name, p)]
  | (k, q) :: ps =>
    if name < k then (name, p) :: (k, q) :: ps
    else if name = k then (name, p) :: ps
    else (k, q) :: insert name p ps

def profile? (c : Config) (name : String) : Option Profile := find? name c.profiles

def setProfile (c : Config) (name : String) (p : Profile) : Config :=
  { c with profiles := insert name p c.profiles }

def defaultName (c : Config) : String := c.defaultProfile.getD "default"

end Config

section Read

open Json (Decoded Field Source record required nullable defaulted)

variable {δ : Type} [Source δ]

namespace Defaults

def outputField : Field δ String := defaulted "output" Json.text builtIn.output
def colorField : Field δ String := defaulted "color" Json.text builtIn.color
def insecureField : Field δ Bool := defaulted "insecure" Json.boolean builtIn.insecure
def timeoutField : Field δ UInt64 := defaulted "timeout" Json.uint64 builtIn.timeout

def read : δ → Decoded Defaults :=
  record "struct Defaults"
    [outputField.guard, colorField.guard, insecureField.guard, timeoutField.guard] fun p => do
    return ⟨← p.get outputField, ← p.get colorField, ← p.get insecureField, ← p.get timeoutField⟩

end Defaults

namespace Profile

def path (d : δ) : Decoded String :=
  match Source.layer d with
  | .string s => .ok s
  | l => .error (l.mismatch "path string")

def controllerField : Field δ String := required "controller" Json.text
def usernameField : Field δ (Option String) := nullable "username" Json.text
def passwordField : Field δ (Option String) := nullable "password" Json.text
def passwordEnvField : Field δ (Option String) := nullable "password_env" Json.text
def caCertField : Field δ (Option String) := nullable "ca_cert" path
def insecureField : Field δ (Option Bool) := nullable "insecure" Json.boolean
def timeoutField : Field δ (Option UInt64) := nullable "timeout" Json.uint64

def read : δ → Decoded Profile :=
  record "struct Profile"
    [controllerField.guard, usernameField.guard, passwordField.guard, passwordEnvField.guard,
      caCertField.guard, insecureField.guard, timeoutField.guard] fun p => do
    return ⟨← p.get controllerField, ← p.get usernameField, ← p.get passwordField,
      ← p.get passwordEnvField, ← p.get caCertField, ← p.get insecureField, ← p.get timeoutField⟩

/-- Profiles under their names, the last of equal names winning. -/
def readEach : List (Except Json.Fault String × δ) → List (String × Profile) →
    Decoded (List (String × Profile))
  | [], done => .ok done
  | (.error f, _) :: _, _ => .error ⟨.malformed f, ⟨[0], .naming⟩⟩
  | (.ok k, d) :: fs, done => do
    let p ← (read d).inside 0
    (readEach fs (Config.insert k p done)).later

def readAll (d : δ) : Decoded (List (String × Profile)) :=
  match Source.layer d with
  | .object fs fault => readEach fs [] >>= Json.close fault
  | l => .error (l.mismatch "a map")

end Profile

namespace Config

def defaultProfileField : Field δ (Option String) := nullable "default_profile" Json.text
def defaultsField : Field δ Defaults := defaulted "defaults" Defaults.read .builtIn
def profilesField : Field δ (List (String × Profile)) := defaulted "profiles" Profile.readAll []

def read : δ → Decoded Config :=
  record "struct Config" [defaultProfileField.guard, defaultsField.guard, profilesField.guard]
    fun p => do
    return ⟨← p.get defaultProfileField, ← p.get defaultsField, ← p.get profilesField⟩

end Config

end Read

def Defaults.toJson (d : Defaults) : Json :=
  .object [("output", .string d.output), ("color", .string d.color), ("insecure", .bool d.insecure),
    ("timeout", .ofNat d.timeout.toNat)]

def Profile.toJson (p : Profile) : Json :=
  .object ([("controller", .string p.controller), ("username", Json.ofOption .string p.username)] ++
    Json.optionalField "password" .string p.password ++
    Json.optionalField "password_env" .string p.passwordEnv ++
    Json.optionalField "ca_cert" .string p.caCert ++
    Json.optionalField "insecure" .bool p.insecure ++
    Json.optionalField "timeout" (fun t => .ofNat t.toNat) p.timeout)

def Config.toJson (c : Config) : Json :=
  .object [("default_profile", Json.ofOption .string c.defaultProfile),
    ("defaults", c.defaults.toJson),
    ("profiles", .object (c.profiles.map fun (k, p) => (k, p.toJson)))]

def Toml.optionalEntry {α : Type} (name : String) (f : α → Toml) : Option α → List (String × Toml)
  | none => []
  | some a => [(name, f a)]

def Toml.ofUInt64 (n : UInt64) : Toml := .integer n.toNat

def Defaults.toToml (d : Defaults) : Toml :=
  .table [("output", .string d.output), ("color", .string d.color),
    ("insecure", .boolean d.insecure), ("timeout", .ofUInt64 d.timeout)]

def Profile.toToml (p : Profile) : Toml :=
  .table ([("controller", .string p.controller)] ++
    Toml.optionalEntry "username" .string p.username ++
    Toml.optionalEntry "password" .string p.password ++
    Toml.optionalEntry "password_env" .string p.passwordEnv ++
    Toml.optionalEntry "ca_cert" .string p.caCert ++
    Toml.optionalEntry "insecure" .boolean p.insecure ++
    Toml.optionalEntry "timeout" .ofUInt64 p.timeout)

namespace Config

def toEntries (c : Config) : List (String × Toml) :=
  Toml.optionalEntry "default_profile" .string c.defaultProfile ++
    [("defaults", c.defaults.toToml),
      ("profiles", .table (c.profiles.map fun (k, p) => (k, p.toToml)))]

def toToml (c : Config) : Toml := .table c.toEntries

/-- The largest integer of a document is one of 63 bits. -/
def isStorable (n : UInt64) : Bool := n.toNat < Number.twoPow 63

def fits (c : Config) : Bool :=
  isStorable c.defaults.timeout && c.profiles.all fun (_, p) => p.timeout.all isStorable

def redacted (c : Config) : Config :=
  let mask (p : Profile) : Profile := { p with password := p.password.map fun _ => "****" }
  { c with profiles := c.profiles.map fun (k, p) => (k, mask p) }

end Config

end EidMap
