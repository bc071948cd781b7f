import EidMap.Table.Status

/-!
A table with its rows, two panels a row and a banner. Loads may overlap: each one draws a ticket, and
only the result of the load begun last is applied. Every operation is a step that says whether those
who watch the table are told. A step that sets the banner reads the clock, and what will be read is
given with the table.
-/

namespace EidMap

inductive Panel
  | detail
  | delete
deriving DecidableEq

structure Row (α : Type) where
  item : α
  detailOpen : Bool := false
  deleteOpen : Bool := false

namespace Row

variable {α : Type}

def isOpen (r : Row α) : Panel → Bool
  | .detail => r.detailOpen
  | .delete => r.deleteOpen

def closed (r : Row α) : Row α := ⟨r.item, false, false⟩

def only (r : Row α) (p : Panel) (shown : Bool) : Row α :=
  match p with
  | .detail => ⟨r.item, shown, false⟩
  | .delete => ⟨r.item, false, shown⟩

end Row

/-- What is read off the clocks at one moment: the steady one, in milliseconds, and the date. -/
structure Moment where
  steady : Int
  date : Int
deriving DecidableEq

/-- The readings of a clock, and how many of them are taken. -/
structure Clock where
  reading : Nat → Moment
  taken : Nat

namespace Clock

def stopped : Clock := ⟨fun _ => ⟨0, 0⟩, 0⟩

def now (c : Clock) : Moment := c.reading c.taken

def next (c : Clock) : Clock := ⟨c.reading, c.taken + 1⟩

end Clock

structure Table (α : Type) where
  name : String
  rows : List (Row α)
  status : Status
  setAt : Moment
  generation : Nat
  loadedAt : Option Moment
  clock : Clock

namespace Table

variable {α : Type}

def new (name : String) (clock : Clock := .stopped) : Table α :=
  ⟨name, [], .idle, clock.now, 0, none, clock.next⟩

def loaded (t : Table α) : Bool := t.loadedAt.isSome

def told (t : Table α) (status : Status) : Table α :=
  { t with status, setAt := t.clock.now, clock := t.clock.next }

def isTelling (t : Table α) (now : Moment) : Bool :=
  t.status.isVisible (now.steady - t.setAt.steady)

def items (t : Table α) : List α := t.rows.map Row.item

def find? (t : Table α) (p : α → Bool) : Option α := t.items.find? p

/-- Begins a load; the new generation is its ticket. -/
def beginLoad (t : Table α) : Table α × Nat :=
  ({ t.told .loading with generation := t.generation + 1 }, t.generation + 1)

/-- Applies the result of a load if no other was begun since. A failed load keeps the rows. -/
def finishLoad (t : Table α) (ticket : Nat) (result : Except String (List α)) : Table α × Bool :=
  if t.generation ≠ ticket then (t, false)
  else
    match result with
    | .ok items =>
      ({ t.told .loaded with
        rows := items.map fun a => ⟨a, false, false⟩, loadedAt := some t.clock.now }, true)
    | .error message => (t.told (.loadError message), true)

/-- Flips a panel of a row and closes all others of the table. -/
def toggle (t : Table α) (index : Nat) (p : Panel) : Table α × Bool :=
  match t.rows[index]? with
  | none => (t, false)
  | some r =>
    ({ t with rows := (t.rows.map Row.closed).set index (r.only p (!r.isOpen p)) }, true)

def record (t : Table α) (operation : String) (outcome : Except String Unit) : Table α :=
  match outcome with
  | .ok () => t.told (.operationSucceeded operation)
  | .error message => t.told (.operationFailed operation message)

inductive Event (α : Type)
  | beginLoad
  | finishLoad (ticket : Nat) (result : Except String (List α))
  | toggle (index : Nat) (panel : Panel)
  | record (operation : String) (outcome : Except String Unit)

inductive Reply
  | ticket (n : Nat)
  | applied (b : Bool)
  | noted
deriving DecidableEq

structure Step (α : Type) where
  table : Table α
  reply : Reply
  notified : Bool

def step (t : Table α) : Event α → Step α
  | .beginLoad =>
    let (t, n) := t.beginLoad
    ⟨t, .ticket n, true⟩
  | .finishLoad ticket result =>
    let (t, applied) := t.finishLoad ticket result
    ⟨t, .applied applied, applied⟩
  | .toggle index panel =>
    let (t, applied) := t.toggle index panel
    ⟨t, .applied applied, applied⟩
  | .record operation outcome => ⟨t.record operation outcome, .noted, true⟩

def run (t : Table α) (es : List (Event α)) : Table α := es.foldl (fun t e => (t.step e).table) t

end Table

end EidMap
