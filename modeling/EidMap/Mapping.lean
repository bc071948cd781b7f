import EidMap.Instant
import EidMap.Locator

/-!
Rows of the mappings table: a stored mapping with its addresses read and its locators summed up. A
row keeps the record that was read from the store.
-/

namespace EidMap

structure Mapping where
  vni : UInt32
  eidUri : String
  origin : Option String
  eid : Address
  recordTtl : Option UInt32
  action : Action
  authoritative : Bool
  mapVersion : Option Int
  timestamp : Option Instant
  siteId : Option String
  xtrId : Option String
  locators : List Locator
  summary : Summary
  raw : Json

namespace Mapping

def ofStored (vni : UInt32) (m : Stored.Mapping) : Mapping :=
  let r := m.record
  let action := Action.ofStored r.action
  let locators := r.locators.map Locator.ofStored
  { vni
    eidUri := m.eidUri
    origin := m.origin
    eid := Address.ofWire r.eid
    recordTtl := r.recordTtl
    action
    authoritative := r.authoritative.getD false
    mapVersion := r.mapVersion
    timestamp := r.timestamp.bind Instant.ofMillis?
    siteId := r.siteId
    xtrId := r.xtrId
    locators
    summary := Summary.ofLocators locators action
    raw := r.toJson.ordered }

def requestRecord (eid : Address) (recordTtl : Option UInt32) (action : Action)
    (authoritative : Bool) (locators : List Locator) : Stored.Record :=
  { eid := eid.toWire
    recordTtl
    action := some action.name
    authoritative := some authoritative
    mapVersion := none
    timestamp := none
    siteId := none
    xtrId := none
    locators := locators.map Locator.toStored
    extra := [] }

def isNegative (m : Mapping) : Bool := m.locators.isEmpty

def rawField : Json → List (String × Json)
  | .null => []
  | v => [("raw", v)]

def toJson (m : Mapping) : Json :=
  .object ([("vni", .ofNat m.vni.toNat), ("eid_uri", .string m.eidUri),
    ("origin", Json.ofOption .string m.origin), ("eid", m.eid.toWire),
    ("record_ttl", Json.ofOption (.ofNat ·.toNat) m.recordTtl), ("action", .string m.action.name),
    ("authoritative", .bool m.authoritative), ("map_version", Json.ofOption .ofInt m.mapVersion),
    ("timestamp", Json.ofOption (.string ·.text) m.timestamp),
    ("site_id", Json.ofOption .string m.siteId), ("xtr_id", Json.ofOption .string m.xtrId),
    ("locators", .array (m.locators.map Locator.toJson)), ("summary", m.summary.toJson)] ++
    rawField m.raw)

section Read

open Json (Decoded Field Source record required nullable defaulted)

variable {δ : Type} [Source δ]

def instant (d : δ) : Decoded Instant :=
  match Source.layer d with
  | .string s =>
    match Instant.read s with
    | .ok t => .ok t
    | .error e => .error (Json.Flaw.at (.refused e.message) .ending)
  | l => .error (l.mismatch "an RFC 3339 formatted date and time string")

def vniField : Field δ UInt32 := required "vni" Json.uint32
def eidUriField : Field δ String := required "eid_uri" Json.text
def originField : Field δ (Option String) := nullable "origin" Json.text
def eidField : Field δ Address := required "eid" Locator.wireAddress
def recordTtlField : Field δ (Option UInt32) := nullable "record_ttl" Json.uint32
def actionField : Field δ Action := required "action" Action.read
def authoritativeField : Field δ Bool := required "authoritative" Json.boolean
def mapVersionField : Field δ (Option Int) := nullable "map_version" Json.int16
def timestampField : Field δ (Option Instant) := nullable "timestamp" instant
def siteIdField : Field δ (Option String) := nullable "site_id" Json.text
def xtrIdField : Field δ (Option String) := nullable "xtr_id" Json.text
def locatorsField : Field δ (List Locator) := required "locators" (Json.list Locator.read)
def summaryField : Field δ Summary := required "summary" Summary.read
def rawValueField : Field δ Json := defaulted "raw" Json.value .null

def read : δ → Decoded Mapping :=
  record "struct MappingEntry"
    [vniField.guard, eidUriField.guard, originField.guard, eidField.guard, recordTtlField.guard,
      actionField.guard, authoritativeField.guard, mapVersionField.guard, timestampField.guard,
      siteIdField.guard, xtrIdField.guard, locatorsField.guard, summaryField.guard,
      rawValueField.guard] fun p => do
    return ⟨← p.get vniField, ← p.get eidUriField, ← p.get originField, ← p.get eidField,
      ← p.get recordTtlField, ← p.get actionField, ← p.get authoritativeField,
      ← p.get mapVersionField, ← p.get timestampField, ← p.get siteIdField, ← p.get xtrIdField,
      ← p.get locatorsField, ← p.get summaryField, ← p.get rawValueField⟩

end Read

end Mapping

/-- Rows of the keys table: a stored key whose record is kept with the secret masked. -/
structure KeyEntry where
  vni : UInt32
  eidUri : String
  eid : Address
  keyType : UInt16
  secret : String
  raw : Json

namespace KeyEntry

def ofStored (vni : UInt32) (k : Stored.Key) : KeyEntry :=
  { vni
    eidUri := k.eidUri
    eid := Address.ofWire k.eid
    keyType := k.secret.type
    secret := k.secret.text
    raw := (Stored.Key.toJson { k with secret := k.secret.masked }).ordered }

def toJson (k : KeyEntry) : Json :=
  .object ([("vni", .ofNat k.vni.toNat), ("eid_uri", .string k.eidUri), ("eid", k.eid.toWire),
    ("key_type", .ofNat k.keyType.toNat), ("key_string", .string "****")] ++
    Mapping.rawField k.raw)

end KeyEntry

end EidMap
