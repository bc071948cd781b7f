import EidMap.Proofs.Service.Deletion
import Mathlib.Logic.Function.Basic

/-!
# Calls that run at the same time

All clones of a service share its tables, so the steps of several calls about one topic may come in
any order. A system is a table, the stage of every call and the moment, which is counted in steps.
Each step of a call is one operation on the table, or one message to or from the store; what the
store answers is left open. A call that runs alone does what the service does.
-/

namespace EidMap

inductive Job
  | refresh
  | lookup (uri : String)
  | delete (uri : String)
deriving DecidableEq

inductive Goal
  | job (k : Job)
  | reload (acknowledged : Nat)
deriving DecidableEq

/-- A load that was begun: its ticket, the moment, and the items that the table showed then. -/
structure Load (t : Topic) where
  ticket : Nat
  begun : Nat
  before : List t.Row

inductive Result (t : Topic)
  | failed (e : ServiceError)
  | table (T : Table t.Row)
  | row (a : t.Row)
  | done

/-- How far a call has come. Requests and answers of a load keep their moments. -/
inductive Stage (t : Topic)
  | waiting (g : Goal)
  | begun (g : Goal) (l : Load t)
  | asked (g : Goal) (l : Load t) (sent : Nat)
  | answered (g : Goal) (l : Load t) (sent received : Nat)
    (answer : Service.Outcome Stored.Database)
  | loaded (g : Goal) (l : Load t) (applied : Bool)
  | found (a : t.Row)
  | posted (a : t.Row)
  | refused (e : ServiceError)
  | returned (r : Result t)

/-- What makes a call take its next step: itself, or an answer of the store. -/
inductive Move
  | go
  | reply (answer : Service.Outcome Stored.Database)
  | acknowledge (answer : Service.Outcome Unit)

structure System (t : Topic) where
  table : Table t.Row
  calls : Nat → Stage t
  clock : Nat
  received : List (Nat × Stored.Database)

variable {t : Topic}

namespace Topic

def brought (t : Topic) (name : String) :
    Service.Outcome Stored.Database → Except String (List t.Row)
  | .ok d => .ok (t.shelf.rows d)
  | .error e => .error (e.asLoadError name).message

def answer (t : Topic) (uri : String) : Option t.Row → Result t
  | some a => .row a
  | none => .failed (.notFound t.shelf.entity uri)

end Topic

/-- After a load: a failed one ends its call, but not that of a removal that was acknowledged. -/
def Goal.next (g : Goal) (l : Load t) (name : String) (applied : Bool) :
    Service.Outcome Stored.Database → Stage t
  | .ok _ => .loaded g l applied
  | .error e =>
    match g with
    | .job _ => .returned (.failed (e.asLoadError name))
    | .reload _ => .returned .done

def Job.next (k : Job) (T : Table t.Row) : Stage t :=
  match k with
  | .refresh => .returned (.table T)
  | .lookup uri => .returned (t.answer uri (T.find? fun a => t.shelf.eidUri a == uri))
  | .delete uri =>
    match T.find? fun a => t.shelf.eidUri a == uri with
    | some a => .found a
    | none => .returned (.failed (.notFound t.shelf.entity uri))

namespace System

def set (σ : System t) (i : Nat) (c : Stage t) (T : Table t.Row) : System t :=
  { σ with table := T, calls := Function.update σ.calls i c, clock := σ.clock + 1 }

def hear (σ : System t) (answer : Service.Outcome Stored.Database) : System t :=
  { σ with received := σ.received ++ (answer.toOption.map (σ.clock, ·)).toList }

def newLoad (σ : System t) : Load t := ⟨σ.table.beginLoad.2, σ.clock, σ.table.items⟩

def finish (σ : System t) (l : Load t) (answer : Service.Outcome Stored.Database) :
    Table t.Row × Bool :=
  σ.table.finishLoad l.ticket (t.brought σ.table.name answer)

def stepFrom? (σ : System t) (i : Nat) (c : Stage t) (m : Move) : Option (System t) :=
  match c, m with
  | .waiting g, .go => some (σ.set i (.begun g σ.newLoad) σ.table.beginLoad.1)
  | .begun g l, .go => some (σ.set i (.asked g l σ.clock) σ.table)
  | .asked g l sent, .reply o =>
    some ((σ.hear o).set i (.answered g l sent σ.clock o) σ.table)
  | .answered g l _ _ o, .go =>
    some (σ.set i (g.next l σ.table.name (σ.finish l o).2 o) (σ.finish l o).1)
  | .loaded (.job k) _ _, .go => some (σ.set i (k.next σ.table) σ.table)
  | .loaded (.reload _) _ _, .go =>
    some (σ.set i (.returned .done) (σ.table.record t.removal.name (.ok ())))
  | .found a, .go => some (σ.set i (.posted a) σ.table)
  | .posted _, .acknowledge (.ok ()) => some (σ.set i (.waiting (.reload σ.clock)) σ.table)
  | .posted _, .acknowledge (.error e) =>
    some (σ.set i (.refused (e.asOperationError t.removal.name)) σ.table)
  | .refused e, .go =>
    some (σ.set i (.returned (.failed e)) (σ.table.record t.removal.name (.error e.message)))
  | _, _ => none

def step? (σ : System t) (i : Nat) (m : Move) : Option (System t) := σ.stepFrom? i (σ.calls i) m

def run (σ : System t) : List (Nat × Move) → Option (System t)
  | [] => some σ
  | (i, m) :: es => (σ.step? i m).bind (·.run es)

def start (T : Table t.Row) (jobs : Nat → Job) : System t :=
  ⟨T, fun i => .waiting (.job (jobs i)), 0, []⟩

theorem run_append (σ : System t) (es fs : List (Nat × Move)) :
    σ.run (es ++ fs) = (σ.run es).bind (·.run fs) := by
  induction es generalizing σ with
  | nil => rfl
  | cons e es ih =>
    simp only [List.cons_append, run, Option.bind_assoc]
    exact congrArg _ (funext fun τ => ih τ)

@[simp]
theorem calls_set_self (σ : System t) (i : Nat) (c : Stage t) (T : Table t.Row) :
    (σ.set i c T).calls i = c :=
  Function.update_self ..

@[simp]
theorem table_set (σ : System t) (i : Nat) (c : Stage t) (T : Table t.Row) :
    (σ.set i c T).table = T := rfl

def loads (i : Nat) (answer : Service.Outcome Stored.Database) : List (Nat × Move) :=
  [(i, .go), (i, .go), (i, .reply answer), (i, .go)]

theorem run_loads {σ : System t} {i : Nat} {g : Goal} (h : σ.calls i = .waiting g)
    (o : Service.Outcome Stored.Database) :
    ∃ τ l, σ.run (loads i o) = some τ ∧
      τ.table = (σ.table.beginLoad.1.finishLoad σ.table.beginLoad.2 (t.brought σ.table.name o)).1 ∧
      τ.calls i = g.next l σ.table.name true o := by
  have happlied : (σ.table.beginLoad.1.finishLoad σ.table.beginLoad.2
      (t.brought σ.table.name o)).2 = true := by
    cases o <;> simp [Table.beginLoad, Table.finishLoad, Topic.brought]
  let σ₁ := σ.set i (.begun g σ.newLoad) σ.table.beginLoad.1
  let σ₂ := σ₁.set i (.asked g σ.newLoad σ₁.clock) σ₁.table
  let σ₃ := (σ₂.hear o).set i (.answered g σ.newLoad σ₁.clock σ₂.clock o) σ₂.table
  let σ₄ := σ₃.set i (g.next σ.newLoad σ.table.name true o)
    (σ.table.beginLoad.1.finishLoad σ.table.beginLoad.2 (t.brought σ.table.name o)).1
  have h₁ : σ.step? i .go = some σ₁ := by
    rw [step?, h]
    rfl
  have h₂ : σ₁.step? i .go = some σ₂ := by
    rw [step?, calls_set_self]
    rfl
  have h₃ : σ₂.step? i (.reply o) = some σ₃ := by
    rw [step?, calls_set_self]
    rfl
  have h₄ : σ₃.step? i .go = some σ₄ := by
    rw [step?, calls_set_self]
    exact congrArg (fun b => some (σ₃.set i (g.next σ.newLoad σ.table.name b o) _)) happlied
  refine ⟨σ₄, σ.newLoad, ?_, rfl, calls_set_self ..⟩
  simp only [loads, run, h₁, h₂, h₃, h₄, Option.bind_some]

def Alone (i : Nat) (σ τ : System t) : Prop :=
  ∃ es : List (Nat × Move), (∀ e ∈ es, e.1 = i) ∧ σ.run es = some τ

theorem Alone.refl (i : Nat) (σ : System t) : Alone i σ σ := ⟨[], nofun, rfl⟩

theorem Alone.append {i : Nat} {σ τ υ : System t} (h : Alone i σ τ) (es : List (Nat × Move))
    (hes : ∀ e ∈ es, e.1 = i) (hrun : τ.run es = some υ) : Alone i σ υ := by
  obtain ⟨fs, hfs, hσ⟩ := h
  refine ⟨fs ++ es, fun e he => ?_, ?_⟩
  · rcases List.mem_append.1 he with he | he
    · exact hfs e he
    · exact hes e he
  · rw [run_append, hσ, Option.bind_some, hrun]

theorem Alone.step {i : Nat} {σ τ υ : System t} (h : Alone i σ τ) {m : Move}
    (hstep : τ.step? i m = some υ) : Alone i σ υ := by
  refine h.append [(i, m)] (fun e he => ?_) ?_
  · rw [List.mem_singleton.1 he]
  · rw [run, hstep, Option.bind_some, run]

theorem Alone.load {i : Nat} {σ τ : System t} (h : Alone i σ τ) {g : Goal}
    (hcall : τ.calls i = .waiting g) (o : Service.Outcome Stored.Database) :
    ∃ υ l, Alone i σ υ ∧
      υ.table = (τ.table.beginLoad.1.finishLoad τ.table.beginLoad.2 (t.brought τ.table.name o)).1 ∧
      υ.calls i = g.next l τ.table.name true o := by
  obtain ⟨υ, l, hrun, htable, hnext⟩ := run_loads hcall o
  refine ⟨υ, l, h.append _ (fun e he => ?_) hrun, htable, hnext⟩
  simp only [loads, List.mem_cons, List.not_mem_nil, or_false] at he
  rcases he with rfl | rfl | rfl | rfl <;> rfl

end System

def Job.perform (k : Job) (t : Topic) (s : Service) : Result t × Service :=
  match k with
  | .refresh =>
    match s.refresh t.shelf with
    | (.ok T, s) => (.table T, s)
    | (.error e, s) => (.failed e, s)
  | .lookup uri =>
    match s.lookup t.shelf uri with
    | (.ok a, s) => (.row a, s)
    | (.error e, s) => (.failed e, s)
  | .delete uri =>
    match s.delete t.shelf uri with
    | (.ok (), s) => (.done, s)
    | (.error e, s) => (.failed e, s)

namespace System

variable {σ : System t} {i : Nat} {s : Service}

theorem alone_unloaded {σ₀ : System t} {k : Job} (h : Alone i σ₀ σ)
    (hcall : σ.calls i = .waiting (.job k)) (e : ServiceError) :
    ∃ τ, Alone i σ₀ τ ∧ τ.calls i = .returned (.failed (e.asLoadError σ.table.name)) ∧
      τ.table = σ.table.failed (e.asLoadError σ.table.name).message := by
  obtain ⟨τ, l, halone, hτ, hnext⟩ := h.load hcall (.error e)
  exact ⟨τ, halone, hnext, hτ⟩

theorem alone_seen {σ₀ : System t} {k : Job} (h : Alone i σ₀ σ)
    (hcall : σ.calls i = .waiting (.job k)) (d : Stored.Database) :
    ∃ τ, Alone i σ₀ τ ∧ τ.calls i = k.next (σ.table.shown (t.shelf.rows d)) ∧
      τ.table = σ.table.shown (t.shelf.rows d) := by
  obtain ⟨τ, l, halone, hτ, hnext⟩ := h.load hcall (.ok d)
  have hstep : τ.step? i .go = some (τ.set i (k.next τ.table) τ.table) := by
    rw [step?, hnext]
    rfl
  exact ⟨_, halone.step hstep, (calls_set_self ..).trans (by rw [hτ]; rfl), hτ⟩

theorem alone_removed {σ₀ : System t} {a : t.Row} (h : Alone i σ₀ σ)
    (hcall : σ.calls i = .found a) :
    ∃ τ m, Alone i σ₀ τ ∧ τ.calls i = .waiting (.reload m) ∧ τ.table = σ.table := by
  have h₁ : σ.step? i .go = some (σ.set i (.posted a) σ.table) := by
    rw [step?, hcall]
    rfl
  have h₂ : (σ.set i (.posted a) σ.table).step? i (.acknowledge (.ok ())) =
      some ((σ.set i (.posted a) σ.table).set i (.waiting (.reload (σ.clock + 1))) σ.table) := by
    rw [step?, calls_set_self]
    rfl
  exact ⟨_, _, (h.step h₁).step h₂, calls_set_self .., rfl⟩

theorem alone_refused {σ₀ : System t} {a : t.Row} (h : Alone i σ₀ σ)
    (hcall : σ.calls i = .found a) (e : ServiceError) :
    ∃ τ, Alone i σ₀ τ ∧ τ.calls i = .returned (.failed (e.asOperationError t.removal.name)) ∧
      τ.table = σ.table.record t.removal.name
        (.error (e.asOperationError t.removal.name).message) := by
  let σ₁ := σ.set i (.posted a) σ.table
  let σ₂ := σ₁.set i (.refused (e.asOperationError t.removal.name)) σ.table
  have h₁ : σ.step? i .go = some σ₁ := by
    rw [step?, hcall]
    rfl
  have h₂ : σ₁.step? i (.acknowledge (.error e)) = some σ₂ := by
    rw [step?, calls_set_self]
    rfl
  have h₃ : σ₂.step? i .go =
      some (σ₂.set i (.returned (.failed (e.asOperationError t.removal.name)))
        (σ.table.record t.removal.name
          (.error (e.asOperationError t.removal.name).message))) := by
    rw [step?, calls_set_self]
    rfl
  exact ⟨_, ((h.step h₁).step h₂).step h₃, calls_set_self .., rfl⟩

theorem alone_reloaded {σ₀ : System t} {m : Nat} (h : Alone i σ₀ σ)
    (hcall : σ.calls i = .waiting (.reload m)) (o : Service.Outcome Stored.Database) :
    ∃ τ, Alone i σ₀ τ ∧ τ.calls i = .returned .done ∧
      τ.table = match o with
        | .ok d => (σ.table.shown (t.shelf.rows d)).record t.removal.name (.ok ())
        | .error e => σ.table.failed (e.asLoadError σ.table.name).message := by
  obtain ⟨τ, l, halone, hτ, hnext⟩ := h.load hcall o
  cases o with
  | error e => exact ⟨τ, halone, hnext, hτ⟩
  | ok d =>
    have hstep : τ.step? i .go =
        some (τ.set i (.returned .done) (τ.table.record t.removal.name (.ok ()))) := by
      rw [step?, hnext]
      rfl
    exact ⟨_, halone.step hstep, calls_set_self .., by rw [table_set, hτ]; rfl⟩

theorem alone_refresh (hcall : σ.calls i = .waiting (.job .refresh))
    (htable : σ.table = t.shelf.get s) :
    ∃ τ, Alone i σ τ ∧ τ.calls i = .returned (Job.perform .refresh t s).1 ∧
      τ.table = t.shelf.get (Job.perform .refresh t s).2 := by
  have hself := Service.put_self s t
  rw [← htable] at hself
  cases hload : s.load s.network with
  | error e =>
    have hrefresh := Service.refresh_of_not_load (T := σ.table) hload
    rw [hself] at hrefresh
    simp only [Job.perform, hrefresh, Service.get_put]
    exact alone_unloaded (.refl i σ) hcall e
  | ok d =>
    have hrefresh := Service.refresh_of_load (T := σ.table) hload
    rw [hself] at hrefresh
    simp only [Job.perform, hrefresh, Service.get_put]
    exact alone_seen (.refl i σ) hcall d

theorem alone_lookup {uri : String} (hcall : σ.calls i = .waiting (.job (.lookup uri)))
    (htable : σ.table = t.shelf.get s) :
    ∃ τ, Alone i σ τ ∧ τ.calls i = .returned (Job.perform (.lookup uri) t s).1 ∧
      τ.table = t.shelf.get (Job.perform (.lookup uri) t s).2 := by
  have hself := Service.put_self s t
  rw [← htable] at hself
  cases hload : s.load s.network with
  | error e =>
    have hlookup := Service.lookup_of_not_load (T := σ.table) hload uri
    rw [hself] at hlookup
    simp only [Job.perform, hlookup, Service.get_put]
    exact alone_unloaded (.refl i σ) hcall e
  | ok d =>
    have hlookup := Service.lookup_of_load (T := σ.table) hload uri
    rw [hself] at hlookup
    obtain ⟨τ, halone, hcalls, hτ⟩ := alone_seen (.refl i σ) hcall d
    simp only [Job.perform, hlookup]
    refine ⟨τ, halone, hcalls.trans ?_, ?_⟩
    · simp only [Job.next, Table.find?, Table.items_shown, Topic.first?]
      cases (t.shelf.rows d).find? fun a => t.shelf.eidUri a == uri <;> rfl
    · cases t.first? uri d <;> exact hτ.trans Service.get_put.symm

theorem alone_delete {uri : String} (hcall : σ.calls i = .waiting (.job (.delete uri)))
    (htable : σ.table = t.shelf.get s) :
    ∃ τ, Alone i σ τ ∧ τ.calls i = .returned (Job.perform (.delete uri) t s).1 ∧
      τ.table = t.shelf.get (Job.perform (.delete uri) t s).2 := by
  have hfind : ∀ d : Stored.Database, (σ.table.shown (t.shelf.rows d)).find?
      (fun a => t.shelf.eidUri a == uri) = t.first? uri d := by
    intro d
    rw [Table.find?, Table.items_shown, Topic.first?]
  obtain ⟨sent, r, T, hcourse, hdelete⟩ := Service.course_delete s t uri
  simp only [Job.perform, hdelete]
  -- the store answers each step as it does in the course
  cases hcourse with
  | @unloaded e load =>
    rw [Service.get_put, ← htable]
    exact alone_unloaded (.refl i σ) hcall e
  | @absent get d reading load missing =>
    obtain ⟨τ, halone, hcalls, hτ⟩ := alone_seen (.refl i σ) hcall d
    rw [Job.next, hfind, missing] at hcalls
    rw [Service.get_put, ← htable]
    exact ⟨τ, halone, hcalls, hτ⟩
  | @refused get d a e reading load found post =>
    obtain ⟨τ, halone, hcalls, hτ⟩ := alone_seen (.refl i σ) hcall d
    rw [Job.next, hfind, found] at hcalls
    rw [Service.get_put, ← htable, ← hτ]
    exact alone_refused halone hcalls e
  | @unreloaded get post d a e reading load found posting posted accepted reload =>
    obtain ⟨τ, halone, hcalls, hτ⟩ := alone_seen (.refl i σ) hcall d
    rw [Job.next, hfind, found] at hcalls
    obtain ⟨υ, m, halone, hwaiting, hυ⟩ := alone_removed halone hcalls
    have hname : υ.table.name = σ.table.name := by rw [hυ, hτ, Table.name_shown]
    rw [Service.get_put, ← htable, ← hτ, ← hυ, ← hname]
    exact alone_reloaded halone hwaiting (.error e)
  | @done get post d d' a reading load found posting posted accepted reload =>
    obtain ⟨τ, halone, hcalls, hτ⟩ := alone_seen (.refl i σ) hcall d
    rw [Job.next, hfind, found] at hcalls
    obtain ⟨υ, m, halone, hwaiting, hυ⟩ := alone_removed halone hcalls
    rw [Service.get_put, ← htable, ← hτ, ← hυ]
    exact alone_reloaded halone hwaiting (.ok d')

theorem alone_perform {k : Job} (hcall : σ.calls i = .waiting (.job k))
    (htable : σ.table = t.shelf.get s) :
    ∃ τ, Alone i σ τ ∧ τ.calls i = .returned (k.perform t s).1 ∧
      τ.table = t.shelf.get (k.perform t s).2 := by
  cases k with
  | refresh => exact alone_refresh hcall htable
  | lookup uri => exact alone_lookup hcall htable
  | delete uri => exact alone_delete hcall htable

end System

end EidMap
