import EidMap.Mapping

/-!
The operations of the mapping service, and the request that removes a displayed row: it carries the
identifier as the JSON value that the store encoded.
-/

namespace EidMap.Rpc

inductive Operation
  | addKey
  | getKey
  | updateKey
  | removeKey
  | addMapping
  | getMapping
  | updateMapping
  | removeMapping
deriving DecidableEq

namespace Operation

def name : Operation → String
  | .addKey => "add-key"
  | .getKey => "get-key"
  | .updateKey => "update-key"
  | .removeKey => "remove-key"
  | .addMapping => "add-mapping"
  | .getMapping => "get-mapping"
  | .updateMapping => "update-mapping"
  | .removeMapping => "remove-mapping"

def all : List Operation :=
  [.addKey, .getKey, .updateKey, .removeKey, .addMapping, .getMapping, .updateMapping,
    .removeMapping]

def ofName? (s : String) : Option Operation := all.find? (·.name == s)

def isWrite : Operation → Bool
  | .getKey | .getMapping => false
  | _ => true

end Operation

def input (body : Json) : Json := .object [("input", body)]

def eidInput (eid : Json) : Json := input (.object [("eid", eid)])

structure Removal where
  operation : Operation
  eidUri : String
  body : Json

/-- The identifier of a stored record, else the one that was read from it. -/
def storedEid (raw : Json) (eid : Address) : Json := (raw.field? "eid").getD eid.toWire

def Removal.ofMapping (m : Mapping) : Removal :=
  ⟨.removeMapping, m.eidUri, eidInput (storedEid m.raw m.eid)⟩

def Removal.ofKey (k : KeyEntry) : Removal :=
  ⟨.removeKey, k.eidUri, eidInput (storedEid k.raw k.eid)⟩

end EidMap.Rpc
