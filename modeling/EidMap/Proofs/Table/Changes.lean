import EidMap.Proofs.Service.Refresh
import Mathlib.Data.List.Induction

/-!
# What whole changes make of a table

Seen from outside a call, a table changes by whole loads, by notes of an operation and by toggles of a
panel: a load that began has also finished. What a list of changes makes of a table follows from what
each one does: the loads count the generation, the last one that brought items has the rows, and only a
success takes an error off the banner.
-/

namespace EidMap.Table

variable {α : Type}

/-- A load from its beginning to its end, a note of an operation, or a toggle of a panel. -/
inductive Change (α : Type)
  | load (result : Except String (List α))
  | note (operation : String) (outcome : Except String Unit)
  | toggle (index : Nat) (panel : Panel)

namespace Change

def isLoad : Change α → Bool
  | .load _ => true
  | _ => false

def brought? : Change α → Option (List α)
  | .load (.ok xs) => some xs
  | _ => none

def isToggle : Change α → Bool
  | .toggle .. => true
  | _ => false

end Change

def change (T : Table α) : Change α → Table α
  | .load result => (T.beginLoad.1.finishLoad T.beginLoad.2 result).1
  | .note operation outcome => T.record operation outcome
  | .toggle index panel => (T.toggle index panel).1

def changed (T : Table α) (cs : List (Change α)) : Table α := cs.foldl change T

theorem changed_cons (T : Table α) (c : Change α) (cs : List (Change α)) :
    T.changed (c :: cs) = (T.change c).changed cs := rfl

theorem changed_append (T : Table α) (cs ds : List (Change α)) :
    T.changed (cs ++ ds) = (T.changed cs).changed ds := List.foldl_append

theorem change_load_ok (T : Table α) (xs : List α) : T.change (.load (.ok xs)) = T.shown xs := rfl

theorem change_load_error (T : Table α) (message : String) :
    T.change (.load (.error message)) = T.failed message := rfl

theorem generation_change (T : Table α) (c : Change α) :
    (T.change c).generation = T.generation + if c.isLoad then 1 else 0 := by
  cases c with
  | load result =>
    cases result with
    | ok xs => rw [change_load_ok, shown_eq]; rfl
    | error message => rw [change_load_error, failed_eq]; rfl
  | note operation outcome => exact generation_record T operation outcome
  | toggle index panel => exact generation_toggle T index panel

theorem generation_changed (T : Table α) (cs : List (Change α)) :
    (T.changed cs).generation = T.generation + cs.countP Change.isLoad := by
  induction cs generalizing T with
  | nil => rfl
  | cons c cs ih =>
    rw [changed_cons, ih, generation_change, List.countP_cons]
    omega

theorem items_change (T : Table α) (c : Change α) :
    (T.change c).items = c.brought?.getD T.items := by
  cases c with
  | load result =>
    cases result with
    | ok xs => exact items_shown T xs
    | error message => exact items_failed T message
  | note operation outcome => exact items_record T operation outcome
  | toggle index panel => exact items_toggle T index panel

theorem items_changed (T : Table α) (cs : List (Change α)) :
    (T.changed cs).items = (cs.filterMap Change.brought?).getLast?.getD T.items := by
  induction cs generalizing T with
  | nil => rfl
  | cons c cs ih =>
    rw [changed_cons, ih, items_change, List.filterMap_cons]
    cases c.brought? with
    | none => rfl
    | some xs =>
      rw [List.getLast?_cons]
      rfl

theorem rows_change (T : Table α) {c : Change α} (h : c.isToggle = false) :
    (T.change c).rows = c.brought?.elim T.rows (List.map fun a => ⟨a, false, false⟩) := by
  cases c with
  | load result =>
    cases result with
    | ok xs => rw [change_load_ok, shown_eq]; rfl
    | error message => exact rows_failed T message
  | note operation outcome => exact rows_record T operation outcome
  | toggle index panel => cases h

theorem rows_changed (T : Table α) {cs : List (Change α)} (h : ∀ c ∈ cs, c.isToggle = false) :
    (T.changed cs).rows = (cs.filterMap Change.brought?).getLast?.elim T.rows
      (List.map fun a => ⟨a, false, false⟩) := by
  induction cs generalizing T with
  | nil => rfl
  | cons c cs ih =>
    obtain ⟨hc, hcs⟩ := List.forall_mem_cons.1 h
    rw [changed_cons, ih _ hcs, rows_change T hc, List.filterMap_cons]
    cases c.brought? with
    | none => rfl
    | some xs =>
      dsimp only
      rw [List.getLast?_cons]
      cases (cs.filterMap Change.brought?).getLast? <;> rfl

theorem status_toggle (T : Table α) (i : Nat) (p : Panel) : (T.toggle i p).1.status = T.status := by
  unfold toggle
  split <;> rfl

theorem status_change_ne_loading {T : Table α} (h : T.status ≠ .loading) (c : Change α) :
    (T.change c).status ≠ .loading := by
  cases c with
  | load result =>
    cases result with
    | ok xs => rw [change_load_ok, status_shown]; exact Status.noConfusion
    | error message => rw [change_load_error, status_failed]; exact Status.noConfusion
  | note operation outcome => cases outcome <;> exact Status.noConfusion
  | toggle index panel =>
    rw [change, status_toggle]
    exact h

theorem status_changed_ne_loading {T : Table α} (h : T.status ≠ .loading)
    (cs : List (Change α)) : (T.changed cs).status ≠ .loading := by
  induction cs generalizing T with
  | nil => exact h
  | cons c cs ih => exact ih (status_change_ne_loading h c)

/-- What an error on the banner has become after some changes: an error still, or the success of a
load or of an operation among them. -/
inductive Settled (cs : List (Change α)) : Status → Prop
  | error {status : Status} (h : status.isError = true) : Settled cs status
  | loaded (h : cs.filterMap Change.brought? ≠ []) : Settled cs .loaded
  | succeeded {operation : String} (h : .note operation (.ok ()) ∈ cs) :
    Settled cs (.operationSucceeded operation)

theorem Settled.append {cs : List (Change α)} {status : Status} (h : Settled cs status)
    (ds : List (Change α)) : Settled (cs ++ ds) status := by
  cases h with
  | error h => exact .error h
  | loaded h =>
    refine .loaded fun hnil => h ?_
    rw [List.filterMap_append] at hnil
    exact (List.append_eq_nil_iff.1 hnil).1
  | succeeded h => exact .succeeded (List.mem_append_left ds h)

theorem settled_change {T : Table α} {cs : List (Change α)} (h : Settled cs T.status)
    (c : Change α) : Settled (cs ++ [c]) (T.change c).status := by
  cases c with
  | load result =>
    cases result with
    | ok xs =>
      rw [change_load_ok, status_shown]
      refine .loaded ?_
      rw [List.filterMap_append]
      exact List.append_ne_nil_of_right_ne_nil _ (List.cons_ne_nil xs [])
    | error message =>
      rw [change_load_error, status_failed]
      exact .error rfl
  | note operation outcome =>
    cases outcome with
    | ok _ => exact .succeeded (List.mem_append_right cs List.mem_cons_self)
    | error message => exact .error rfl
  | toggle index panel =>
    rw [change, status_toggle]
    exact h.append _

theorem settled_changed {T : Table α} (h : T.status.isError = true) (cs : List (Change α)) :
    Settled cs (T.changed cs).status := by
  induction cs using List.reverseRecOn with
  | nil => exact .error h
  | append_singleton cs c ih =>
    rw [changed_append]
    exact settled_change ih c

end EidMap.Table
