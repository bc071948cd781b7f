import EidMap.Json.Parts
import EidMap.Address.Basic

/-!
Addresses as JSON. On the wire an address is an object with its type and a payload under the name of
that type, or a bare string or number. Reading never fails: what is no address is kept as it came
and written back the same.
-/

namespace EidMap.Address

open Json (Decoded Field Parts Guard record required optional defaulted)

namespace Payload

abbrev value : Json → Decoded Json := Json.value

structure InstanceId where
  iid : UInt32
  mask : Option UInt8
  address : Json

namespace InstanceId

def iidField : Field Json UInt32 := required "iid" Json.uint32
def maskField : Field Json (Option UInt8) := optional "mask-length" Json.uint8
def addressField : Field Json Json := required "address" value

def read : Json → Decoded InstanceId :=
  record "struct InstanceIdWire" [iidField.guard, maskField.guard, addressField.guard] fun p => do
    return ⟨← p.get iidField, ← p.get maskField, ← p.get addressField⟩

theorem address_mem {v : Json} {x : InstanceId} (h : read v = .ok x) : x.address ∈ v.parts := by
  obtain ⟨p, hp, h⟩ := Json.exists_parts_of_record h
  obtain ⟨_, _, h⟩ := Json.bind_eq_ok.1 h
  obtain ⟨_, _, h⟩ := Json.bind_eq_ok.1 h
  obtain ⟨_, ha, h⟩ := Json.bind_eq_ok.1 h
  cases h
  exact hp ▸ Parts.mem_of_get_value ha

end InstanceId

namespace Members

def field : Field Json (List Json) := required "address-list" (Json.list value) ["address"]

def read : Json → Decoded (List Json) :=
  record "struct AfiListWire" [field.guard] fun p => p.get field

theorem exists_part {v : Json} {xs : List Json} (h : read v = .ok xs) {x : Json} (hx : x ∈ xs) :
    ∃ l ∈ v.parts, x ∈ l.parts := by
  obtain ⟨p, hp, h⟩ := Json.exists_parts_of_record h
  obtain ⟨l, hl, h⟩ := Parts.exists_of_get rfl h
  obtain ⟨y, hy, hxy⟩ := Json.mem_of_list h hx
  rw [Json.value_eq_ok] at hxy
  exact ⟨l, hp ▸ hl, hxy ▸ hy⟩

theorem member_lt {v : Json} {xs : List Json} (h : read v = .ok xs) {x : Json} (hx : x ∈ xs) :
    sizeOf x < sizeOf v := by
  obtain ⟨l, hl, hxl⟩ := exists_part h hx
  exact Nat.lt_trans (Json.sizeOf_lt_of_mem_parts hxl) (Json.sizeOf_lt_of_mem_parts hl)

end Members

structure ApplicationData where
  address : Json
  flow : Flow

namespace ApplicationData

def addressField : Field Json Json := required "address" value
def tosField : Field Json UInt32 := defaulted "ip-tos" Json.uint32 0 ["ipTos"]
def protocolField : Field Json UInt8 := defaulted "protocol" Json.uint8 0
def localLowField : Field Json UInt16 := defaulted "local-port-low" Json.uint16 0 ["localPortLow"]
def localHighField : Field Json UInt16 :=
  defaulted "local-port-high" Json.uint16 0 ["localPortHigh"]
def remoteLowField : Field Json UInt16 :=
  defaulted "remote-port-low" Json.uint16 0 ["remotePortLow"]
def remoteHighField : Field Json UInt16 :=
  defaulted "remote-port-high" Json.uint16 0 ["remotePortHigh"]

def guards : List (Guard Json) :=
  [addressField.guard, tosField.guard, protocolField.guard, localLowField.guard,
    localHighField.guard, remoteLowField.guard, remoteHighField.guard]

def read : Json → Decoded ApplicationData :=
  record "struct ApplicationDataWire" guards fun p => do
    return ⟨← p.get addressField,
      ← p.get tosField, ← p.get protocolField, ← p.get localLowField, ← p.get localHighField,
      ← p.get remoteLowField, ← p.get remoteHighField⟩

theorem address_mem {v : Json} {x : ApplicationData} (h : read v = .ok x) :
    x.address ∈ v.parts := by
  obtain ⟨p, hp, h⟩ := Json.exists_parts_of_record h
  obtain ⟨_, ha, h⟩ := Json.bind_eq_ok.1 h
  iterate 6 obtain ⟨_, _, h⟩ := Json.bind_eq_ok.1 h
  cases h
  exact hp ▸ Parts.mem_of_get_value ha

end ApplicationData

namespace Path

def idField : Field Json (Option String) := optional "hop-id" Json.text
def addressField : Field Json Json := required "address" value
def lrsBitsField : Field Json (Option String) := optional "lrs-bits" Json.text

def readHop : Json → Decoded (Hop Json) :=
  record "struct HopWire" [idField.guard, addressField.guard, lrsBitsField.guard] fun p => do
    return ⟨← p.get idField, ← p.get addressField, ← p.get lrsBitsField⟩

def field : Field Json (List (Hop Json)) := defaulted "hop" (Json.list readHop) []

def read : Json → Decoded (List (Hop Json)) :=
  record "struct ElpWire" [field.guard] fun p => p.get field

theorem address_mem {v : Json} {x : Hop Json} (h : readHop v = .ok x) : x.address ∈ v.parts := by
  obtain ⟨p, hp, h⟩ := Json.exists_parts_of_record h
  obtain ⟨_, _, h⟩ := Json.bind_eq_ok.1 h
  obtain ⟨_, ha, h⟩ := Json.bind_eq_ok.1 h
  obtain ⟨_, _, h⟩ := Json.bind_eq_ok.1 h
  cases h
  exact hp ▸ Parts.mem_of_get_value ha

theorem exists_part {v : Json} {hops : List (Hop Json)} (h : read v = .ok hops) {x : Hop Json}
    (hx : x ∈ hops) : ∃ l ∈ v.parts, ∃ y ∈ l.parts, x.address ∈ y.parts := by
  obtain ⟨p, hp, h⟩ := Json.exists_parts_of_record h
  rcases Parts.get_defaulted h with rfl | ⟨l, hl, h⟩
  · cases hx
  · obtain ⟨y, hy, hxy⟩ := Json.mem_of_list h hx
    exact ⟨l, hp ▸ hl, y, hy, address_mem hxy⟩

theorem address_lt {v : Json} {hops : List (Hop Json)} (h : read v = .ok hops) {x : Hop Json}
    (hx : x ∈ hops) : sizeOf x.address < sizeOf v := by
  obtain ⟨l, hl, y, hy, hxy⟩ := exists_part h hx
  have h₁ := Json.sizeOf_lt_of_mem_parts hl
  have h₂ := Json.sizeOf_lt_of_mem_parts hy
  have h₃ := Json.sizeOf_lt_of_mem_parts hxy
  omega

end Path

structure SourceDest where
  source : Json
  dest : Json
  sourceMask : Option UInt8
  destMask : Option UInt8

namespace SourceDest

def sourceField : Field Json Json := required "source" value
def destField : Field Json Json := required "dest" value
def sourceMaskField : Field Json (Option UInt8) := optional "source-mask-length" Json.uint8
def destMaskField : Field Json (Option UInt8) := optional "dest-mask-length" Json.uint8

def read : Json → Decoded SourceDest :=
  record "struct SourceDestWire"
    [sourceField.guard, destField.guard, sourceMaskField.guard, destMaskField.guard] fun p => do
    return ⟨← p.get sourceField, ← p.get destField, ← p.get sourceMaskField,
      ← p.get destMaskField⟩

theorem addresses_mem {v : Json} {x : SourceDest} (h : read v = .ok x) :
    x.source ∈ v.parts ∧ x.dest ∈ v.parts := by
  obtain ⟨p, hp, h⟩ := Json.exists_parts_of_record h
  obtain ⟨_, hs, h⟩ := Json.bind_eq_ok.1 h
  obtain ⟨_, hd, h⟩ := Json.bind_eq_ok.1 h
  obtain ⟨_, _, h⟩ := Json.bind_eq_ok.1 h
  obtain ⟨_, _, h⟩ := Json.bind_eq_ok.1 h
  cases h
  exact ⟨hp ▸ Parts.mem_of_get_value hs, hp ▸ Parts.mem_of_get_value hd⟩

end SourceDest

structure KeyValue where
  key : Json
  value : Json

namespace KeyValue

def keyField : Field Json Json := required "key" Payload.value
def valueField : Field Json Json := required "value" Payload.value

def read : Json → Decoded KeyValue :=
  record "struct KeyValueWire" [keyField.guard, valueField.guard] fun p => do
    return ⟨← p.get keyField, ← p.get valueField⟩

theorem addresses_mem {v : Json} {x : KeyValue} (h : read v = .ok x) :
    x.key ∈ v.parts ∧ x.value ∈ v.parts := by
  obtain ⟨p, hp, h⟩ := Json.exists_parts_of_record h
  obtain ⟨_, hk, h⟩ := Json.bind_eq_ok.1 h
  obtain ⟨_, hv, h⟩ := Json.bind_eq_ok.1 h
  cases h
  exact ⟨hp ▸ Parts.mem_of_get_value hk, hp ▸ Parts.mem_of_get_value hv⟩

end KeyValue

end Payload

/-- The local name of a type without its module and without the ending `-afi` or `-lcaf`. -/
def normalizeType (cs : List Char) : List Char :=
  let name := match Text.cutLast ':' cs with
    | some (_, name) => name
    | none => cs
  match "-afi".toList.isSuffixOf? name with
  | some stem => stem
  | none => ("-lcaf".toList.isSuffixOf? name).getD name

/-- Payload names by which an object without a type is recognized, in this order. -/
def payloadNames : List String :=
  ["no-address", "ipv4", "ipv4-prefix", "ipv6", "ipv6-prefix", "mac", "distinguished-name",
    "as-number", "afi-list", "instance-id", "application-data", "explicit-locator-path",
    "source-dest-key", "key-value-address"]

def payloadName? (fs : List (String × Json)) : Option String :=
  match Json.lookup "address-type" fs with
  | some (.string type) => some (String.ofList (normalizeType type.toList))
  | _ => payloadNames.find? fun name => (Json.lookup name fs).isSome

def textPayload (payload : Json) : Except Unreadable String :=
  match payload with
  | .string s => .ok s
  | v => .error (.notString v)

def ofAsNumber? (v : Json) : Option UInt32 :=
  match v with
  | .number (.integer z) =>
    if 0 ≤ z && z < UInt32.size then some (UInt32.ofNat z.toNat) else none
  | _ => none

def decoded {α : Type} : Decoded α → Except Unreadable α
  | .ok a => .ok a
  | .error e => .error (.undecodable e)

def ofPlainPayload (name : String) (payload : Json) : Except Unreadable Address :=
  match name with
  | "ipv4" | "ipv4-prefix" => do
    match ofSimple (← textPayload payload).toList with
    | .ipv4 addr length => .ok (.ipv4 addr length)
    | _ => .error (.notIpv4 payload)
  | "ipv6" | "ipv6-prefix" => do
    match ofSimple (← textPayload payload).toList with
    | .ipv6 addr length => .ok (.ipv6 addr length)
    | _ => .error (.notIpv6 payload)
  | "mac" => (textPayload payload).map .mac
  | "distinguished-name" => (textPayload payload).map .distinguishedName
  | "as-number" =>
    match ofAsNumber? payload with
    | some n => .ok (.asNumber n)
    | none => .error (.notAsNumber payload)
  | name => .error (.unsupported name)

mutual
def ofWire (v : Json) : Address :=
  match v with
  | .string s => ofSimple s.toList
  | .number n =>
    match ofAsNumber? (.number n) with
    | some n => .asNumber n
    | none => .unrenderable "as-number" .asNumberOutOfRange (.number n)
  | .object fs =>
    match payloadName? fs with
    | none => .unrenderable "" .missingType (.object fs)
    | some name =>
      if name = "no-address" then .noAddress
      else
        match _h : Json.lookup name fs with
        | none => .unrenderable name .missingPayload (.object fs)
        | some payload =>
          match ofPayload name payload with
          | .ok a => a
          | .error reason => .unrenderable name reason (.object fs)
  | v => .unrenderable "" .notAddress v
termination_by sizeOf v
decreasing_by exact Json.sizeOf_lookup_lt _h

def ofPayload (name : String) (payload : Json) : Except Unreadable Address :=
  match name with
  | "afi-list" =>
    match _h : Payload.Members.read payload with
    | .error e => .error (.undecodable e)
    | .ok xs => .ok (.list (xs.attach.map fun x => ofWire x.1))
  | "instance-id" =>
    match _h : Payload.InstanceId.read payload with
    | .error e => .error (.undecodable e)
    | .ok x =>
      let inner := ofWire x.address
      match x.mask with
      | some mask => .ok (.instanceId x.iid mask inner)
      | none => .ok (.instanceId x.iid inner.splitPrefix.2 inner.splitPrefix.1)
  | "application-data" =>
    match _h : Payload.ApplicationData.read payload with
    | .error e => .error (.undecodable e)
    | .ok x => .ok (.applicationData (ofWire x.address) x.flow)
  | "explicit-locator-path" =>
    match _h : Payload.Path.read payload with
    | .error e => .error (.undecodable e)
    | .ok hops =>
      .ok (.locatorPath (hops.attach.map fun x => ⟨x.1.id, ofWire x.1.address, x.1.lrsBits⟩))
  | "source-dest-key" =>
    match _h : Payload.SourceDest.read payload with
    | .error e => .error (.undecodable e)
    | .ok x =>
      let source := (ofWire x.source).splitPrefix
      let dest := (ofWire x.dest).splitPrefix
      .ok (.sourceDest source.1 (x.sourceMask.getD source.2) dest.1 (x.destMask.getD dest.2))
  | "key-value-address" =>
    match _h : Payload.KeyValue.read payload with
    | .error e => .error (.undecodable e)
    | .ok x => .ok (.keyValue (ofWire x.key) (ofWire x.value))
  | name => ofPlainPayload name payload
termination_by sizeOf payload
decreasing_by
  · exact Payload.Members.member_lt _h x.2
  · exact Json.sizeOf_lt_of_mem_parts (Payload.InstanceId.address_mem _h)
  · exact Json.sizeOf_lt_of_mem_parts (Payload.ApplicationData.address_mem _h)
  · exact Payload.Path.address_lt _h x.2
  · exact Json.sizeOf_lt_of_mem_parts (Payload.SourceDest.addresses_mem _h).1
  · exact Json.sizeOf_lt_of_mem_parts (Payload.SourceDest.addresses_mem _h).2
  · exact Json.sizeOf_lt_of_mem_parts (Payload.KeyValue.addresses_mem _h).1
  · exact Json.sizeOf_lt_of_mem_parts (Payload.KeyValue.addresses_mem _h).2
end

def tagged (type payloadName : String) (payload : Json) : Json :=
  .object [("address-type", .string ("ietf-lisp-address-types:" ++ type)), (payloadName, payload)]

def lengthText (addr : List Char) (length : UInt8) : Json :=
  .string (String.ofList (addr ++ '/' :: Text.digits length.toNat))

mutual
def toWire : Address → Json
  | .noAddress => tagged "no-address-afi" "no-address" (.bool true)
  | .ipv4 addr none => tagged "ipv4-afi" "ipv4" (.string (String.ofList addr.text))
  | .ipv4 addr (some n) => tagged "ipv4-prefix-afi" "ipv4-prefix" (lengthText addr.text n)
  | .ipv6 addr none => tagged "ipv6-afi" "ipv6" (.string (String.ofList addr.text))
  | .ipv6 addr (some n) => tagged "ipv6-prefix-afi" "ipv6-prefix" (lengthText addr.text n)
  | .mac text => tagged "mac-afi" "mac" (.string text)
  | .distinguishedName name => tagged "distinguished-name-afi" "distinguished-name" (.string name)
  | .asNumber n => tagged "as-number-afi" "as-number" (.ofNat n.toNat)
  | .list members =>
    tagged "afi-list-lcaf" "afi-list" (.object [("address-list", .array (toWireMembers members))])
  | .instanceId iid mask a =>
    tagged "instance-id-lcaf" "instance-id"
      (.object [("address", toWire a), ("iid", .ofNat iid.toNat),
        ("mask-length", .ofNat mask.toNat)])
  | .applicationData a f =>
    tagged "application-data-lcaf" "application-data"
      (.object [("address", toWire a), ("ip-tos", .ofNat f.tos.toNat),
        ("local-port-high", .ofNat f.localHigh.toNat), ("local-port-low", .ofNat f.localLow.toNat),
        ("protocol", .ofNat f.protocol.toNat),
        ("remote-port-high", .ofNat f.remoteHigh.toNat),
        ("remote-port-low", .ofNat f.remoteLow.toNat)])
  | .locatorPath hops =>
    tagged "explicit-locator-path-lcaf" "explicit-locator-path"
      (.object [("hop", .array (toWireHops hops))])
  | .sourceDest source m dest n =>
    tagged "source-dest-key-lcaf" "source-dest-key"
      (.object [("dest", toWire dest), ("dest-mask-length", .ofNat n.toNat),
        ("source", toWire source), ("source-mask-length", .ofNat m.toNat)])
  | .keyValue key value =>
    tagged "key-value-address-lcaf" "key-value-address"
      (.object [("key", toWire key), ("value", toWire value)])
  | .unrenderable _ _ raw => raw

def toWireMembers : List Address → List Json
  | [] => []
  | a :: as => toWire a :: toWireMembers as

def toWireHops : List (Hop Address) → List Json
  | [] => []
  | ⟨id, a, bits⟩ :: hops =>
    .object (("address", toWire a) :: Json.optionalField "hop-id" .string id ++
      Json.optionalField "lrs-bits" .string bits) :: toWireHops hops
end

end EidMap.Address
