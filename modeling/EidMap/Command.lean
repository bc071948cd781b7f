import EidMap.Address.Parse
import EidMap.Rpc.Operation

/-!
Commands on the mapping service and the requests they carry. A request names an address by its
display text or by its wire form.
-/

namespace EidMap

section Read

open Json (Decoded Field Source record required optional defaulted)

variable {δ : Type} [Source δ]

/-- An address in display text, or any other value in wire form. -/
def readAddress (d : δ) : Decoded Address := do
  match ← Json.value d with
  | .string s =>
    match Address.parse s with
    | .ok a => .ok a
    | .error e => .error (Json.Flaw.at (.refused e.message) .enclosed)
  | v => .ok (Address.ofWire v)

structure EidRequest where
  eid : Address

namespace EidRequest

def eidField : Field δ Address := required "eid" readAddress

def read : δ → Decoded EidRequest :=
  record "struct EidRequest" [eidField.guard] fun p => do return ⟨← p.get eidField⟩

end EidRequest

structure KeyRequest where
  eid : Address
  vni : UInt32
  key : Stored.Secret

namespace KeyRequest

def eidField : Field δ Address := required "eid" readAddress
def vniField : Field δ UInt32 := defaulted "vni" Json.uint32 0
def typeField : Field δ UInt16 := defaulted "key_type" Json.uint16 1
def textField : Field δ String := required "key_string" Json.text

def read : δ → Decoded KeyRequest :=
  record "struct KeyRequest" [eidField.guard, vniField.guard, typeField.guard, textField.guard]
    fun p => do
    return ⟨← p.get eidField, ← p.get vniField, ⟨← p.get typeField, ← p.get textField⟩⟩

def scopedEid (r : KeyRequest) : Address := r.eid.scopeToVni r.vni

end KeyRequest

namespace LocatorRequest

def rlocField : Field δ Address := required "rloc" readAddress
def priorityField : Field δ UInt8 := defaulted "priority" Json.uint8 1
def weightField : Field δ UInt8 := defaulted "weight" Json.uint8 100
def multicastPriorityField : Field δ UInt8 := defaulted "multicast_priority" Json.uint8 255
def multicastWeightField : Field δ UInt8 := defaulted "multicast_weight" Json.uint8 0
def localField : Field δ Bool := defaulted "local_locator" Json.boolean false
def probedField : Field δ Bool := defaulted "rloc_probed" Json.boolean false
def routedField : Field δ Bool := defaulted "routed" Json.boolean true

def read : δ → Decoded Locator :=
  record "struct LocatorRequest"
    [rlocField.guard, priorityField.guard, weightField.guard, multicastPriorityField.guard,
      multicastWeightField.guard, localField.guard, probedField.guard, routedField.guard]
    fun p => do
    return ⟨none, ← p.get rlocField, ← p.get priorityField, ← p.get weightField,
      ← p.get multicastPriorityField, ← p.get multicastWeightField, ← p.get localField,
      ← p.get probedField, ← p.get routedField⟩

end LocatorRequest

structure MappingRequest where
  eid : Address
  vni : UInt32
  recordTtl : Option UInt32
  action : Action
  authoritative : Bool
  locators : List Locator

namespace MappingRequest

def eidField : Field δ Address := required "eid" readAddress
def vniField : Field δ UInt32 := defaulted "vni" Json.uint32 0
def recordTtlField : Field δ (Option UInt32) := optional "record_ttl" Json.uint32
def actionField : Field δ Action := defaulted "action" Action.read .noAction
def authoritativeField : Field δ Bool := defaulted "authoritative" Json.boolean false
def locatorsField : Field δ (List Locator) :=
  defaulted "locators" (Json.list LocatorRequest.read) []

def read : δ → Decoded MappingRequest :=
  record "struct MappingRequest"
    [eidField.guard, vniField.guard, recordTtlField.guard, actionField.guard,
      authoritativeField.guard, locatorsField.guard] fun p => do
    return ⟨← p.get eidField, ← p.get vniField, ← p.get recordTtlField, ← p.get actionField,
      ← p.get authoritativeField, ← p.get locatorsField⟩

def scopedEid (r : MappingRequest) : Address := r.eid.scopeToVni r.vni

def record (r : MappingRequest) : Stored.Record :=
  Mapping.requestRecord r.scopedEid r.recordTtl r.action r.authoritative r.locators

end MappingRequest

end Read

inductive Command
  | addKey (r : KeyRequest)
  | getKey (r : EidRequest)
  | updateKey (r : KeyRequest)
  | removeKey (r : EidRequest)
  | addMapping (r : MappingRequest)
  | getMapping (r : EidRequest)
  | updateMapping (r : MappingRequest)
  | removeMapping (r : EidRequest)

namespace Command

def operation : Command → Rpc.Operation
  | .addKey _ => .addKey
  | .getKey _ => .getKey
  | .updateKey _ => .updateKey
  | .removeKey _ => .removeKey
  | .addMapping _ => .addMapping
  | .getMapping _ => .getMapping
  | .updateMapping _ => .updateMapping
  | .removeMapping _ => .removeMapping

def targetsKeys : Command → Bool
  | .addKey _ | .getKey _ | .updateKey _ | .removeKey _ => true
  | _ => false

def eid : Command → Address
  | .addKey r | .updateKey r => r.scopedEid
  | .addMapping r | .updateMapping r => r.scopedEid
  | .getKey r | .removeKey r | .getMapping r | .removeMapping r => r.eid

end Command

end EidMap
