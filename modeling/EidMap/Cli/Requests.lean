import EidMap.Cli.Error
import EidMap.Cli.Options
import EidMap.Command
import EidMap.Service.Settings

/-!
Requests to the service out of what a command line holds. A mapping is told by flags or by a file
that holds the whole request; whatever cannot be read is told before the store is asked.
-/

namespace EidMap.Cli

def readAddress (field text : String) : Except Error Address :=
  match Address.parse text with
  | .ok a => .ok a
  | .error e => .error (.invalid field e.message)

namespace MappingWrite

def ofFile (files : Files) (name : String) : Except Error MappingRequest :=
  match files.read name with
  | .error reason => .error (.io reason)
  | .ok text =>
    match Json.decodeText MappingRequest.read text with
    | .ok r => .ok r
    | .error e => .error (.invalid "from-file" (name ++ ": " ++ e.messageIn text))

def locator (m : MappingWrite) (rloc : String) : Except Error Locator := do
  return { Locator.neutral (← readAddress "rloc" rloc) with
    priority := m.priority, weight := m.weight }

def ofFlags (m : MappingWrite) : Except Error MappingRequest :=
  match m.eid with
  | none => .error (.invalid "eid" "required unless --from-file is given")
  | some eid => do
    let eid ← readAddress "eid" eid
    return ⟨eid, m.vni, m.ttl, m.action, m.authoritative, ← m.rlocs.mapM m.locator⟩

def request (m : MappingWrite) (files : Files) : Except Error MappingRequest :=
  match m.fromFile with
  | some name => ofFile files name
  | none => m.ofFlags

end MappingWrite

namespace KeyWrite

def secret (k : KeyWrite) : Except Error String :=
  match k.key with
  | none => .error (.invalid "key" "pass --key or set LISPMAP_KEY_STRING when not on a terminal")
  | some "" => .error (.invalid "key" "must not be empty")
  | some text => .ok text

def request (k : KeyWrite) : Except Error KeyRequest := do
  let eid ← readAddress "eid" k.eid
  return ⟨eid, k.vni, ⟨k.keyType, ← k.secret⟩⟩

end KeyWrite

end EidMap.Cli
