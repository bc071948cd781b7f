import EidMap.Address.Display
import EidMap.Address.Wire
import EidMap.Stored.Record

/-!
Locators of a mapping with their traffic attributes, the choice of the primary one, and the summary
that a table shows of them.
-/

namespace EidMap

/-- What a resolver does for an identifier that has no locators. -/
inductive Action
  | noAction
  | nativelyForward
  | sendMapRequest
  | drop
deriving DecidableEq

namespace Action

def all : List Action := [.noAction, .nativelyForward, .sendMapRequest, .drop]

def name : Action → String
  | .noAction => "NoAction"
  | .nativelyForward => "NativelyForward"
  | .sendMapRequest => "SendMapRequest"
  | .drop => "Drop"

def ofText? (s : String) : Option Action :=
  all.find? fun a => Text.lower a.name.toList == Text.lower s.toList

def ofStored (s : Option String) : Action := (s.bind ofText?).getD .noAction

section Read

open Json (Decoded Flaw Fault Source)

variable {δ : Type} [Source δ]

def ofName (s : String) : Decoded Action :=
  match all.find? (·.name == s) with
  | some a => .ok a
  | none => .error (Flaw.at (.unknownVariant s (all.map name)) .ending)

def unnamed : Option Fault → Json.DecodeError
  | none => Flaw.at (.malformed .expectedValue) .ending
  | some .endInObject => Flaw.at (.malformed .endInValue) .closing
  | some .keyNotString => Flaw.at (.malformed .expectedValue) .closing
  | some f => Flaw.at (.malformed f) .closing

def leave (a : Action) (more : Bool) (close : Option Fault) : Decoded Action :=
  match more, close with
  | false, none => .ok a
  | false, some .endInObject => .error ⟨.malformed .endInObject, ⟨[0], .leaving⟩⟩
  | _, _ => .error ⟨.malformed .expectedValue, ⟨[0], .leaving⟩⟩

/-- The name of an action, or an object with that one field and nothing in it. -/
def read (d : δ) : Decoded Action :=
  match Source.layer d with
  | .string s => ofName s
  | .object [] close =>
    if Source.ofText δ then .error (unnamed close)
    else .error (Flaw.at (.invalidValue .map "map with a single key") .ending)
  | .object ((key, v) :: more) close =>
    if !Source.ofText δ && !more.isEmpty then
      .error (Flaw.at (.invalidValue .map "map with a single key") .ending)
    else
      match key with
      | .error f => .error ⟨.malformed f, ⟨[0], .naming⟩⟩
      | .ok key => do
        let a ← (ofName key).mapError fun e => { e with site := ⟨[0], .named⟩ }
        match Source.layer v with
        | .null => leave a (!more.isEmpty) close
        | l => Decoded.inside 0 (.error (l.mismatch "unit"))
  | .fault f =>
    if f.inString || f = .endInValue then .error (Flaw.at (.malformed f) .reading)
    else .error (Flaw.at (.malformed .expectedValue) .facing)
  | l =>
    if Source.ofText δ then .error (Flaw.at (.malformed .expectedValue) .facing)
    else .error (l.mismatch "string or map")

end Read

end Action

structure Locator where
  id : Option String
  address : Address
  priority : UInt8
  weight : UInt8
  multicastPriority : UInt8
  multicastWeight : UInt8
  localLocator : Bool
  probed : Bool
  routed : Bool

namespace Locator

def neutral (a : Address) : Locator := ⟨none, a, 1, 100, 255, 0, false, false, true⟩

def ofStored (l : Stored.Locator) : Locator :=
  ⟨l.id, Address.ofWire l.rloc, l.priority, l.weight, l.multicastPriority, l.multicastWeight,
    l.localLocator, l.probed, l.routed⟩

def toStored (l : Locator) : Stored.Locator :=
  ⟨l.id, l.priority, l.weight, l.multicastPriority, l.multicastWeight, l.localLocator, l.probed,
    l.routed, l.address.toWire⟩

/-- Is `l` to be used before `m`: by lower priority, then by higher weight? -/
def precedes (l m : Locator) : Bool :=
  l.priority < m.priority || (l.priority == m.priority && m.weight < l.weight)

/-- The first locator that none precedes. -/
def primary? : List Locator → Option Locator
  | [] => none
  | l :: ls => some (ls.foldl (fun best m => if m.precedes best then m else best) l)

def flags (l : Locator) : String :=
  String.intercalate " | " <|
    (if l.localLocator then ["Local"] else []) ++ (if l.probed then ["Probed"] else []) ++
      (if l.routed then ["Up"] else [])

def ttl (l : Locator) : String :=
  Text.natText l.priority.toNat ++ "/" ++ Text.natText l.weight.toNat ++ "/" ++
    Text.natText l.multicastPriority.toNat ++ "/" ++ Text.natText l.multicastWeight.toNat

def toJson (l : Locator) : Json :=
  .object [("locator_id", Json.ofOption .string l.id), ("address", l.address.toWire),
    ("priority", .ofNat l.priority.toNat), ("weight", .ofNat l.weight.toNat),
    ("multicast_priority", .ofNat l.multicastPriority.toNat),
    ("multicast_weight", .ofNat l.multicastWeight.toNat), ("local_locator", .bool l.localLocator),
    ("rloc_probed", .bool l.probed), ("routed", .bool l.routed)]

section Read

open Json (Decoded Field Source record required nullable)

variable {δ : Type} [Source δ]

def wireAddress (d : δ) : Decoded Address := (Json.value d).map Address.ofWire

def idField : Field δ (Option String) := nullable "locator_id" Json.text
def addressField : Field δ Address := required "address" wireAddress
def priorityField : Field δ UInt8 := required "priority" Json.uint8
def weightField : Field δ UInt8 := required "weight" Json.uint8
def multicastPriorityField : Field δ UInt8 := required "multicast_priority" Json.uint8
def multicastWeightField : Field δ UInt8 := required "multicast_weight" Json.uint8
def localField : Field δ Bool := required "local_locator" Json.boolean
def probedField : Field δ Bool := required "rloc_probed" Json.boolean
def routedField : Field δ Bool := required "routed" Json.boolean

def read : δ → Decoded Locator :=
  record "struct LocatorRecord"
    [idField.guard, addressField.guard, priorityField.guard, weightField.guard,
      multicastPriorityField.guard, multicastWeightField.guard, localField.guard,
      probedField.guard, routedField.guard] fun p => do
    return ⟨← p.get idField, ← p.get addressField, ← p.get priorityField, ← p.get weightField,
      ← p.get multicastPriorityField, ← p.get multicastWeightField, ← p.get localField,
      ← p.get probedField, ← p.get routedField⟩

end Read

end Locator

structure Summary where
  locators : String
  flags : String
  ttl : String
deriving DecidableEq

namespace Summary

/-- The primary locator and how many there are besides; without locators the action. -/
def ofLocators (ls : List Locator) (action : Action) : Summary :=
  match Locator.primary? ls with
  | none => ⟨action.name, "", ""⟩
  | some l =>
    let others :=
      if 1 < ls.length then " (+" ++ Text.natText (ls.length - 1) ++ ")" else ""
    ⟨l.address.display ++ others, l.flags, l.ttl⟩

def toJson (s : Summary) : Json :=
  .object [("locator_string", .string s.locators), ("flags", .string s.flags),
    ("ttl", .string s.ttl)]

section Read

open Json (Decoded Field Source record required)

variable {δ : Type} [Source δ]

def locatorsField : Field δ String := required "locator_string" Json.text
def flagsField : Field δ String := required "flags" Json.text
def ttlField : Field δ String := required "ttl" Json.text

def read : δ → Decoded Summary :=
  record "struct MappingSummary" [locatorsField.guard, flagsField.guard, ttlField.guard] fun p => do
    return ⟨← p.get locatorsField, ← p.get flagsField, ← p.get ttlField⟩

end Read

end Summary

end EidMap
