import EidMap.Rpc.Client

/-!
How a mapping service is reached: its URL, credentials, the certificates that are trusted, and how
long to wait.
-/

namespace EidMap

inductive Tls
  | systemDefaults
  | customCa (path : String)
  | acceptInvalid
deriving DecidableEq

structure Settings where
  url : Url
  username : Option String
  password : Option String
  tls : Tls
  timeoutMs : Nat

/-- What the library for secure connections says of the text of a file of certificates. It is not
modelled: what is said here holds for any verdict on any text. -/
inductive Verdict
  | trusted
  | malformed (reason : String)
  | unusable (reason : String)

structure File where
  text : String
  verdict : Verdict

/-- A file where the library cannot be asked: what looks like a certificate is of no use. -/
def File.unasked (text : String) : File :=
  let marked := Text.holds "-----BEGIN CERTIFICATE-----".toList text.toList
  ⟨text, if marked then .unusable "builder error" else .trusted⟩

instance : Coe String File := ⟨File.unasked⟩

abbrev Files := List (String × File)

namespace Files

def file (files : Files) (name : String) : Except String File :=
  match files.lookup name with
  | some f => .ok f
  | none =>
    if name == "." || name == "./" then .error "Is a directory (os error 21)"
    else .error "No such file or directory (os error 2)"

def read (files : Files) (name : String) : Except String String := (files.file name).map File.text

end Files

namespace Settings

def trust (files : Files) (path : String) : Except Rpc.Error Unit :=
  match files.file path with
  | .error reason => .error (.tls ("failed to read CA cert: " ++ reason))
  | .ok ⟨_, .trusted⟩ => .ok ()
  | .ok ⟨_, .malformed reason⟩ => .error (.tls ("invalid CA cert: " ++ reason))
  | .ok ⟨_, .unusable reason⟩ => .error (.tls ("failed to build HTTP client: " ++ reason))

/-- The client for these settings; a username without a password has an empty one. -/
def client (s : Settings) (files : Files) : Except Rpc.Error Rpc.Client := do
  match s.tls with
  | .customCa path => trust files path
  | _ => .ok ()
  return ⟨s.url, s.username.map fun name => ⟨name, s.password.getD ""⟩⟩

end Settings

end EidMap
