import EidMap.Json.Parts

/-!
The documents of the mapping store: the database with its virtual networks, mappings and keys. Each
record has the names that the store gives its leaves; addresses stay as they are in the document. A
mapping record keeps the leaves it does not know.
-/

namespace EidMap.Stored

open Json (Decoded Field Source record openRecord required optional defaulted ofNat ofInt
  optionalField)

variable {δ : Type} [Source δ]

structure Locator where
  id : Option String
  priority : UInt8
  weight : UInt8
  multicastPriority : UInt8
  multicastWeight : UInt8
  localLocator : Bool
  probed : Bool
  routed : Bool
  rloc : Json

namespace Locator

def idField : Field δ (Option String) := optional "locator-id" Json.text
def priorityField : Field δ UInt8 := defaulted "priority" Json.uint8 0
def weightField : Field δ UInt8 := defaulted "weight" Json.uint8 0
def multicastPriorityField : Field δ UInt8 := defaulted "multicastPriority" Json.uint8 0
def multicastWeightField : Field δ UInt8 := defaulted "multicastWeight" Json.uint8 0
def localField : Field δ Bool := defaulted "localLocator" Json.boolean false
def probedField : Field δ Bool := defaulted "rlocProbed" Json.boolean false
def routedField : Field δ Bool := defaulted "routed" Json.boolean false
def rlocField : Field δ Json := required "rloc" Json.value

def read : δ → Decoded Locator :=
  record "struct LocatorRecordWire"
    [idField.guard, priorityField.guard, weightField.guard, multicastPriorityField.guard,
      multicastWeightField.guard, localField.guard, probedField.guard, routedField.guard,
      rlocField.guard] fun p => do
    return ⟨← p.get idField, ← p.get priorityField, ← p.get weightField,
      ← p.get multicastPriorityField, ← p.get multicastWeightField, ← p.get localField,
      ← p.get probedField, ← p.get routedField, ← p.get rlocField⟩

def toJson (l : Locator) : Json :=
  .object (optionalField "locator-id" .string l.id ++
    [("priority", ofNat l.priority.toNat), ("weight", ofNat l.weight.toNat),
      ("multicastPriority", ofNat l.multicastPriority.toNat),
      ("multicastWeight", ofNat l.multicastWeight.toNat), ("localLocator", .bool l.localLocator),
      ("rlocProbed", .bool l.probed), ("routed", .bool l.routed), ("rloc", l.rloc)])

end Locator

def listField {α : Type} (name : String) (f : α → Json) : List α → List (String × Json)
  | [] => []
  | xs => [(name, .array (xs.map f))]

structure Record where
  eid : Json
  recordTtl : Option UInt32
  action : Option String
  authoritative : Option Bool
  mapVersion : Option Int
  timestamp : Option Int
  siteId : Option String
  xtrId : Option String
  locators : List Locator
  extra : List (String × Json)

namespace Record

def eidField : Field δ Json := required "eid" Json.value
def recordTtlField : Field δ (Option UInt32) := optional "recordTtl" Json.uint32 ["record-ttl"]
def actionField : Field δ (Option String) := optional "action" Json.text
def authoritativeField : Field δ (Option Bool) := optional "authoritative" Json.boolean
def mapVersionField : Field δ (Option Int) := optional "mapVersion" Json.int16 ["map-version"]
def timestampField : Field δ (Option Int) := optional "timestamp" Json.int64
def siteIdField : Field δ (Option String) := optional "site-id" Json.text
def xtrIdField : Field δ (Option String) := optional "xtr-id" Json.text
def locatorsField : Field δ (List Locator) :=
  defaulted "LocatorRecord" (Json.list Locator.read) [] ["locator-record"]

def read : δ → Decoded Record :=
  openRecord "struct MappingRecordWire"
    [eidField.guard, recordTtlField.guard, actionField.guard, authoritativeField.guard,
      mapVersionField.guard, timestampField.guard, siteIdField.guard, xtrIdField.guard,
      locatorsField.guard] fun p extra => do
    return ⟨← p.get eidField, ← p.get recordTtlField, ← p.get actionField,
      ← p.get authoritativeField, ← p.get mapVersionField, ← p.get timestampField,
      ← p.get siteIdField, ← p.get xtrIdField, ← p.get locatorsField, extra⟩

def toJson (r : Record) : Json :=
  .object ([("eid", r.eid)] ++ optionalField "recordTtl" (ofNat ·.toNat) r.recordTtl ++
    optionalField "action" .string r.action ++ optionalField "authoritative" .bool r.authoritative ++
    optionalField "mapVersion" ofInt r.mapVersion ++ optionalField "timestamp" ofInt r.timestamp ++
    optionalField "site-id" .string r.siteId ++ optionalField "xtr-id" .string r.xtrId ++
    listField "LocatorRecord" Locator.toJson r.locators ++ r.extra)

end Record

structure Mapping where
  eidUri : String
  origin : Option String
  record : Record

namespace Mapping

def eidUriField : Field δ String := required "eid-uri" Json.text
def originField : Field δ (Option String) := optional "origin" Json.text
def recordField : Field δ Record := required "mapping-record" Record.read

def read : δ → Decoded Mapping :=
  Json.record "struct MappingWire" [eidUriField.guard, originField.guard, recordField.guard]
    fun p => do
    return ⟨← p.get eidUriField, ← p.get originField, ← p.get recordField⟩

def toJson (m : Mapping) : Json :=
  .object ([("eid-uri", .string m.eidUri)] ++ optionalField "origin" .string m.origin ++
    [("mapping-record", m.record.toJson)])

end Mapping

structure Secret where
  type : UInt16
  text : String
deriving DecidableEq

namespace Secret

def typeField : Field δ UInt16 := defaulted "key-type" Json.uint16 0
def textField : Field δ String := defaulted "key-string" Json.text ""

def read : δ → Decoded Secret :=
  record "struct MappingAuthKey" [typeField.guard, textField.guard] fun p => do
    return ⟨← p.get typeField, ← p.get textField⟩

def toJson (s : Secret) : Json :=
  .object [("key-type", ofNat s.type.toNat), ("key-string", .string s.text)]

def masked (s : Secret) : Secret := ⟨s.type, "****"⟩

end Secret

structure Key where
  eidUri : String
  eid : Json
  secret : Secret

namespace Key

def eidUriField : Field δ String := required "eid-uri" Json.text
def eidField : Field δ Json := required "eid" Json.value
def secretField : Field δ Secret := required "mapping-authkey" Secret.read

def read : δ → Decoded Key :=
  record "struct AuthenticationKey" [eidUriField.guard, eidField.guard, secretField.guard] fun p =>
    do return ⟨← p.get eidUriField, ← p.get eidField, ← p.get secretField⟩

def toJson (k : Key) : Json :=
  .object [("eid-uri", .string k.eidUri), ("eid", k.eid), ("mapping-authkey", k.secret.toJson)]

end Key

structure Network where
  vni : UInt32
  mappings : List Mapping
  keys : List Key

namespace Network

def vniField : Field δ UInt32 := required "vni" Json.uint32 ["iid"]
def mappingsField : Field δ (List Mapping) := defaulted "mapping" (Json.list Mapping.read) []
def keysField : Field δ (List Key) := defaulted "authentication-key" (Json.list Key.read) []

def read : δ → Decoded Network :=
  record "struct VirtualNetwork" [vniField.guard, mappingsField.guard, keysField.guard] fun p => do
    return ⟨← p.get vniField, ← p.get mappingsField, ← p.get keysField⟩

def toJson (n : Network) : Json :=
  .object ([("vni", ofNat n.vni.toNat)] ++ listField "mapping" Mapping.toJson n.mappings ++
    listField "authentication-key" Key.toJson n.keys)

end Network

structure Database where
  networks : List Network

namespace Database

def empty : Database := ⟨[]⟩

def networksField : Field δ (List Network) :=
  defaulted "virtual-network-identifier" (Json.list Network.read) []

def read : δ → Decoded Database :=
  record "struct MappingDatabase" [networksField.guard] fun p => do
    return ⟨← p.get networksField⟩

def databaseField : Field δ Database := defaulted "mapping-database" read empty

def readDocument : δ → Decoded Database :=
  record "struct MappingDatabaseDocument" [databaseField.guard] fun p => p.get databaseField

def toJson (d : Database) : Json :=
  .object [("mapping-database",
    .object [("virtual-network-identifier", .array (d.networks.map Network.toJson))])]

end Database

end EidMap.Stored
