import EidMap.Mapping
import EidMap.Output.Format

/-!
Mappings and keys as they are printed. The details of a row end with the record as it is stored; a
secret is masked wherever a key is shown.
-/

namespace EidMap

def Output.storedRecord : Json → String
  | .null => ""
  | v => "\n\nStored record:\n" ++ v.pretty 4

namespace Mapping

def orDash (s : Option String) : String := s.getD "-"

def truthText (b : Bool) : String := if b then "true" else "false"

def locatorFields (ls : List Locator) : List (String × String) :=
  let line (l : Locator) := l.address.display ++ "  p" ++ Text.natText l.priority.toNat ++ "/w" ++
    Text.natText l.weight.toNat ++ "  " ++ l.flags
  match ls with
  | [] => [("Locators", "(none)")]
  | l :: ls => ("Locators", line l) :: ls.map fun l => ("", line l)

def fields (m : Mapping) : List (String × String) :=
  [("EID", m.eid.display), ("EID URI", m.eidUri), ("VNI", Text.natText m.vni.toNat),
    ("Origin", orDash m.origin), ("Record TTL", orDash (m.recordTtl.map (Text.natText ·.toNat))),
    ("Action", m.action.name), ("Authoritative", truthText m.authoritative),
    ("Map version", orDash (m.mapVersion.map Text.intText)),
    ("Timestamp", orDash (m.timestamp.map Instant.offsetText)), ("Site ID", orDash m.siteId),
    ("xTR ID", orDash m.xtrId)] ++ locatorFields m.locators

def details (m : Mapping) : String := Output.labelled m.fields ++ Output.storedRecord m.raw

def cells (m : Mapping) : List String :=
  [m.eid.display, Text.natText m.vni.toNat, m.summary.locators, m.summary.flags, m.summary.ttl,
    m.action.name]

def view : Output.View Mapping :=
  ⟨["EID", "VNI", "Locator", "Flags", "TTL", "Action"], cells, details, toJson, (·.eidUri)⟩

end Mapping

namespace KeyEntry

def fields (k : KeyEntry) : List (String × String) :=
  [("EID", k.eid.display), ("EID URI", k.eidUri), ("VNI", Text.natText k.vni.toNat),
    ("Key type", Text.natText k.keyType.toNat), ("Key", "****")]

def details (k : KeyEntry) : String := Output.labelled k.fields ++ Output.storedRecord k.raw

def cells (k : KeyEntry) : List String :=
  [k.eid.display, Text.natText k.vni.toNat, Text.natText k.keyType.toNat, "****"]

def view : Output.View KeyEntry :=
  ⟨["EID", "VNI", "Key Type", "Key"], cells, details, toJson, (·.eidUri)⟩

end KeyEntry

end EidMap
