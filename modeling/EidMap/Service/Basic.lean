import EidMap.Command
import EidMap.Service.Error
import EidMap.Service.Settings
import EidMap.Table.View

/-!
The mapping service: two tables, mappings and keys, filled from the database of the store. Every
lookup and every removal works on rows that were loaded for it; after a change the table is loaded
again before the banner tells of a success.
-/

namespace EidMap

structure Service where
  settings : Settings
  files : Files
  network : Rpc.Network
  mappings : Table Mapping
  keys : Table KeyEntry

namespace Service

/-- A new service. Each table reads the clock for itself. -/
def new (settings : Settings) (files : Files) (network : Rpc.Network)
    (clocks : Clock × Clock := (.stopped, .stopped)) : Service :=
  ⟨settings, files, network, .new "mappings" clocks.1, .new "keys" clocks.2⟩

structure Shelf (α : Type) where
  get : Service → Table α
  set : Service → Table α → Service
  rows : Stored.Database → List α
  eidUri : α → String
  entity : String
  removal : α → Rpc.Removal

def mappingRows (d : Stored.Database) : List Mapping :=
  d.networks.flatMap fun n => n.mappings.map (Mapping.ofStored n.vni)

def keyRows (d : Stored.Database) : List KeyEntry :=
  d.networks.flatMap fun n => n.keys.map (KeyEntry.ofStored n.vni)

def mappingShelf : Shelf Mapping :=
  ⟨mappings, fun s t => { s with mappings := t }, mappingRows, (·.eidUri), "mapping", .ofMapping⟩

def keyShelf : Shelf KeyEntry :=
  ⟨keys, fun s t => { s with keys := t }, keyRows, (·.eidUri), "key", .ofKey⟩

abbrev Outcome (α : Type) := Except ServiceError α

def client (s : Service) : Outcome Rpc.Client :=
  match s.settings.client s.files with
  | .ok c => .ok c
  | .error e => .error (.ofRpc e)

def connect (s : Service) : Outcome Unit :=
  match s.client with
  | .ok _ => .ok ()
  | .error e => .error e

def call {α : Type} (s : Service)
    (f : Rpc.Client → Rpc.Network → Except Rpc.Error α × Rpc.Network) : Outcome α × Service :=
  match s.client with
  | .error e => (.error e, s)
  | .ok c =>
    match f c s.network with
    | (.ok a, network) => (.ok a, { s with network })
    | (.error e, network) => (.error (.ofRpc e), { s with network })

def loadDatabase (s : Service) : Outcome Stored.Database × Service :=
  s.call fun c => c.mappingDatabase

variable {α : Type}

/-- Loads a table from the store; a failure keeps the rows and is told in the banner. -/
def refresh (shelf : Shelf α) (s : Service) : Outcome (Table α) × Service :=
  let (t, ticket) := (shelf.get s).beginLoad
  match (shelf.set s t).loadDatabase with
  | (.ok d, s) =>
    let s := shelf.set s ((shelf.get s).finishLoad ticket (.ok (shelf.rows d))).1
    (.ok (shelf.get s), s)
  | (.error e, s) =>
    let e := e.asLoadError (shelf.get s).name
    (.error e, shelf.set s ((shelf.get s).finishLoad ticket (.error e.message)).1)

def lookup (shelf : Shelf α) (s : Service) (eidUri : String) : Outcome α × Service :=
  match s.refresh shelf with
  | (.error e, s) => (.error e, s)
  | (.ok t, s) =>
    match t.find? fun a => shelf.eidUri a == eidUri with
    | some a => (.ok a, s)
    | none => (.error (.notFound shelf.entity eidUri), s)

def note (shelf : Shelf α) (s : Service) (op : Rpc.Operation) (outcome : Except String Unit) :
    Service :=
  shelf.set s ((shelf.get s).record op.name outcome)

def sendRemoval (shelf : Shelf α) (s : Service) (r : Rpc.Removal) : Outcome Unit × Service :=
  match s.call fun c => c.removeRaw r.operation r.body with
  | (.ok (), s) => (.ok (), s)
  | (.error e, s) =>
    let e := e.asOperationError r.operation.name
    (.error e, s.note shelf r.operation (.error e.message))

/-- Loads the table and notes a success; a failed load leaves its own banner. -/
def reload (shelf : Shelf α) (s : Service) (op : Rpc.Operation) : Service :=
  match s.refresh shelf with
  | (.ok _, s) => s.note shelf op (.ok ())
  | (.error _, s) => s

/-- Removes the row of an identifier, found in a fresh load, and loads the table again. -/
def delete (shelf : Shelf α) (s : Service) (eidUri : String) : Outcome Unit × Service :=
  match s.lookup shelf eidUri with
  | (.error e, s) => (.error e, s)
  | (.ok a, s) =>
    let r := shelf.removal a
    match s.sendRemoval shelf r with
    | (.error e, s) => (.error e, s)
    | (.ok (), s) => (.ok (), s.reload shelf r.operation)

inductive Result
  | done
  | key (k : KeyEntry)
  | mapping (m : Mapping)

def vniOf : Address → UInt32
  | .instanceId iid _ _ => iid
  | _ => 0

def foundKey (eid : Address) (key : Stored.Secret) : KeyEntry :=
  { vni := vniOf eid
    eidUri := eid.display
    eid
    keyType := key.type
    secret := key.text
    raw := (Json.object [("eid", eid.toWire), ("mapping-authkey", key.masked.toJson)]).ordered }

def foundMapping (eid : Address) (r : Stored.Record) : Mapping :=
  Mapping.ofStored (vniOf eid) ⟨eid.display, none, r⟩

def ofFound {β : Type} (entity : String) (eid : Address) (result : β → Result) :
    Outcome (Option β) × Service → Outcome Result × Service
  | (.error e, s) => (.error e, s)
  | (.ok none, s) => (.error (.notFound entity eid.display), s)
  | (.ok (some b), s) => (.ok (result b), s)

def ofDone : Outcome Unit × Service → Outcome Result × Service
  | (.error e, s) => (.error e, s)
  | (.ok (), s) => (.ok .done, s)

def dispatch (s : Service) : Command → Outcome Result × Service
  | .addKey r => ofDone (s.call fun c => c.addKey r.scopedEid.toWire r.key)
  | .updateKey r => ofDone (s.call fun c => c.updateKey r.scopedEid.toWire r.key)
  | .getKey r =>
    ofFound "key" r.eid (fun k => .key (foundKey r.eid k)) (s.call fun c => c.getKey r.eid.toWire)
  | .removeKey r => ofDone (s.call fun c => c.removeKey r.eid.toWire)
  | .addMapping r => ofDone (s.call fun c => c.addMapping r.record)
  | .updateMapping r => ofDone (s.call fun c => c.updateMapping r.record)
  | .getMapping r =>
    ofFound "mapping" r.eid (fun m => .mapping (foundMapping r.eid m))
      (s.call fun c => c.getMapping r.eid.toWire)
  | .removeMapping r => ofDone (s.call fun c => c.removeMapping r.eid.toWire)

/-- Runs a command against a table: after a successful write the table is loaded again. -/
def executeOn (shelf : Shelf α) (s : Service) (c : Command) : Outcome Result × Service :=
  let op := c.operation
  match s.dispatch c with
  | (.error e, s) =>
    let e := e.asOperationError op.name
    (.error e, s.note shelf op (.error e.message))
  | (.ok r, s) => (.ok r, if op.isWrite then s.reload shelf op else s.note shelf op (.ok ()))

def execute (s : Service) (c : Command) : Outcome Result × Service :=
  if c.targetsKeys then s.executeOn keyShelf c else s.executeOn mappingShelf c

def toggle (shelf : Shelf α) (s : Service) (index : Nat) (p : Panel) : Bool × Service :=
  let (t, applied) := (shelf.get s).toggle index p
  (applied, shelf.set s t)

end Service

end EidMap
