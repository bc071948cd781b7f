import EidMap.Cli.Run
import EidMap.Proofs.Cli.ExitStatus
import EidMap.Proofs.Service.Session

/-!
# Two runs side by side

A command about the store makes at most one call of the service, so what two runs of the program
print, how they end and what they send belongs together if the replies that the first one uses up
do.
-/

namespace EidMap

open Cli (Globals Printed Selection StoreCommand World rowsOf)

namespace Likeness

variable (L : Likeness)

inductive CliErrors : Cli.Error → Cli.Error → Prop
  | same (e : Cli.Error) : CliErrors e e
  | ofService {e e' : ServiceError} (h : L.error e e') : CliErrors (.ofService e) (.ofService e')

theorem CliErrors.imp {M : Likeness} {e e' : Cli.Error} (h : L.CliErrors e e')
    (weaker : ∀ e e', L.error e e' → M.error e e') : M.CliErrors e e' := by
  cases h with
  | same => exact .same e
  | ofService he => exact .ofService (weaker _ _ he)

/-- What is printed of rows and banners that belong together belongs together. -/
structure Prints (P : Printed → Printed → Prop) : Prop where
  refl : ∀ p, P p p
  list : ∀ (g : Globals) (sel : Selection) (t : Topic) {xs ys : List t.Row},
    List.Forall₂ (L.row t) xs ys →
    P (.result g (g.output.list (rowsOf t).view (xs.filter ((rowsOf t).isSelected sel))))
      (.result g (g.output.list (rowsOf t).view (ys.filter ((rowsOf t).isSelected sel))))
  single : ∀ (g : Globals) (t : Topic) {a b : t.Row}, L.row t a b →
    P (.result g (g.output.single (rowsOf t).view a)) (.result g (g.output.single (rowsOf t).view b))
  found : ∀ (g : Globals) (t : Topic) {a b : t.Row}, L.row t a b →
    P ((rowsOf t).printFound g a) ((rowsOf t).printFound g b)
  banner : ∀ (g : Globals) {s s' : Status}, L.Statuses s s' → P (Cli.banner g s) (Cli.banner g s')

end Likeness

namespace Cli

def told {α : Type} (f : α → Service → Except Error Printed)
    (x : Service.Outcome α × Service) : Answer :=
  (x.1.mapError .ofService >>= fun a => f a x.2, x.2)

namespace Rows

variable {g : Globals} {s : Service} (t : Topic)

theorem list_eq (sel : Selection) :
    (rowsOf t).list g sel s = told (fun T _ => .ok (.result g (g.output.list (rowsOf t).view
      (T.items.filter ((rowsOf t).isSelected sel))))) (s.refresh t.shelf) := by
  have hshelf : (rowsOf t).shelf = t.shelf := by cases t <;> rfl
  rw [list, hshelf]
  rcases s.refresh t.shelf with ⟨_ | _, s⟩ <;> rfl

theorem get_eq (eidUri : String) :
    (rowsOf t).get g eidUri s = told (fun a _ => .ok (.result g (g.output.single (rowsOf t).view a)))
      (s.lookup t.shelf eidUri) := by
  have hshelf : (rowsOf t).shelf = t.shelf := by cases t <;> rfl
  rw [get, hshelf]
  rcases s.lookup t.shelf eidUri with ⟨_ | _, s⟩ <;> rfl

def printResult (g : Globals) (c : EidMap.Command) (found : Service.Result) :
    Except Error Printed :=
  match (rowsOf t).ofResult found with
  | some a => .ok ((rowsOf t).printFound g a)
  | none => .error (.api (c.operation.name ++ " returned no record") none)

theorem ask_eq {eid : String} {a : Address} (h : readAddress "eid" eid = .ok a) :
    (rowsOf t).ask g eid s = told (fun found _ => printResult t g ((rowsOf t).lookup ⟨a⟩) found)
      (s.execute ((rowsOf t).lookup ⟨a⟩)) := by
  rw [ask, h]
  dsimp only
  rcases s.execute ((rowsOf t).lookup ⟨a⟩) with ⟨_ | found, s⟩
  · rfl
  · change _ = (printResult t g ((rowsOf t).lookup ⟨a⟩) found, s)
    rw [printResult]
    dsimp only
    cases (rowsOf t).ofResult found <;> rfl

theorem change_eq (c : EidMap.Command) :
    (rowsOf t).change g (.ok c) s = told (fun _ s => .ok (banner g (t.shelf.get s).status))
      (s.execute c) := by
  have hshelf : (rowsOf t).shelf = t.shelf := by cases t <;> rfl
  rw [change, hshelf]
  rcases s.execute c with ⟨_ | _, s⟩ <;> rfl

theorem delete_eq (h : g.yes = true) (eidUri : String) :
    (rowsOf t).delete g eidUri s = told (fun _ s => .ok (banner g (t.shelf.get s).status))
      (s.delete t.shelf eidUri) := by
  have hshelf : (rowsOf t).shelf = t.shelf := by cases t <;> rfl
  rw [delete, hshelf, h, Bool.not_true, if_neg Bool.false_ne_true]
  rcases s.delete t.shelf eidUri with ⟨_ | _, s⟩ <;> rfl

end Rows

def ended (w : World) : Answer → Run
  | (.ok p, s) => .done p { w with network := s.network }
  | (.error e, s) => .failed e { w with network := s.network }

def StoreCommand.call? (g : Globals) (files : Files) : StoreCommand → Option Service.Call
  | .list t _ => some (.refresh t)
  | .get t eidUri => some (.lookup t eidUri)
  | .lookup t eid => (readAddress "eid" eid).toOption.map fun a => .execute ((rowsOf t).lookup ⟨a⟩)
  | .writeMapping c m => (m.request files).toOption.map fun r => .execute (mappingChange c r)
  | .writeKey c k => k.request.toOption.map fun r => .execute (keyChange c r)
  | .delete t eidUri => if g.yes then some (.delete t eidUri) else none

def StoreCommand.used (w : World) (g : Globals) (c : StoreCommand) : List Use :=
  match g.settings w.config w.secrets w.configPath with
  | .error _ => []
  | .ok settings => (Service.new settings w.files w.network).used (c.call? g w.files).toList

/-- What is read out of the answers that a run uses up. -/
def used (w : World) (args : List String) : List Use :=
  match Options.read w.environment args with
  | .ok ⟨g, .store c⟩ => c.used w g
  | _ => []

end Cli

namespace Likeness

variable {L : Likeness} (hL : L.Lawful) {P : Printed → Printed → Prop} (hP : L.Prints P)
  {s s' : Service} (hs : L.Services s s') {g : Globals}

include hs in
theorem Twins.told {α β : Type} {t : Topic} {Q : α → β → Prop} {x : Service.Outcome α × Service}
    {x' : Service.Outcome β × Service} (h : L.Twins t Q s s' x x')
    {f : α → Service → Except Cli.Error Printed} {f' : β → Service → Except Cli.Error Printed}
    (like : ∀ a b, Q a b → L.Services x.2 x'.2 → Paired L.CliErrors P (f a x.2) (f' b x'.2)) :
    L.Steps L.CliErrors P s s' (Cli.told f x) (Cli.told f' x') := by
  have hservices := h.services hs
  cases h with
  | mk sent outcome table =>
    refine ⟨?_, hservices, _, _, sent, Service.network_put, Service.network_put⟩
    exact (outcome.mapError fun _ _ => .ofService).bind fun a b hab => like a b hab hservices

theorem Steps.refl_error (hs : L.Services s s') (e : Cli.Error) :
    L.Steps L.CliErrors P s s' (.error e, s) (.error e, s') :=
  ⟨.error (.same e), hs, [], [], .nil, s.network.after_nil.symm, s'.network.after_nil.symm⟩

theorem used_singleton (s : Service) (c : Service.Call) :
    s.used [c] = c.uses.take (s.sentTo (s.perform c).2) :=
  List.append_nil _

include hP in
theorem Results.printed (t : Topic) (c : Command) {r r' : Service.Result} (h : L.Results r r') :
    Paired L.CliErrors P (Cli.Rows.printResult t g c r) (Cli.Rows.printResult t g c r') := by
  cases h with
  | done => cases t <;> exact .error (.same _)
  | key hk =>
    cases t with
    | mappings => exact .error (.same _)
    | keys => exact .ok (hP.found g .keys hk)
  | mapping hm =>
    cases t with
    | mappings => exact .ok (hP.found g .mappings hm)
    | keys => exact .error (.same _)

include hL hP hs in
theorem run_list (t : Topic) (sel : Selection)
    (agree : L.Serves (s.used [.refresh t]) s.network s'.network) :
    L.Steps L.CliErrors P s s' ((rowsOf t).list g sel s) ((rowsOf t).list g sel s') := by
  rw [used_singleton, Service.perform_refresh] at agree
  rw [Cli.Rows.list_eq, Cli.Rows.list_eq]
  exact (refresh_inStep hL hs agree).told hs fun T T' hT _ => .ok (hP.list g sel t hT.items)

include hL hP hs in
theorem run_get (t : Topic) (eidUri : String)
    (agree : L.Serves (s.used [.lookup t eidUri]) s.network s'.network) :
    L.Steps L.CliErrors P s s' ((rowsOf t).get g eidUri s) ((rowsOf t).get g eidUri s') := by
  rw [used_singleton, Service.perform_lookup] at agree
  rw [Cli.Rows.get_eq, Cli.Rows.get_eq]
  exact (lookup_inStep hL hs eidUri agree).told hs fun a a' ha _ => .ok (hP.single g t ha)

include hL hP hs in
theorem run_ask (t : Topic) {eid : String} {a : Address} (h : Cli.readAddress "eid" eid = .ok a)
    (agree : L.Serves (s.used [.execute ((rowsOf t).lookup ⟨a⟩)]) s.network s'.network) :
    L.Steps L.CliErrors P s s' ((rowsOf t).ask g eid s) ((rowsOf t).ask g eid s') := by
  rw [used_singleton, Service.perform, Service.answerWith_eq] at agree
  rw [Cli.Rows.ask_eq t h, Cli.Rows.ask_eq t h]
  exact (execute_inStep hL hs _ agree).told hs fun r r' hr _ => hr.printed hP t _

include hL hP hs in
theorem run_change (t : Topic) (c : Command)
    (agree : L.Serves (s.used [.execute c]) s.network s'.network) :
    L.Steps L.CliErrors P s s' ((rowsOf t).change g (.ok c) s) ((rowsOf t).change g (.ok c) s') := by
  rw [used_singleton, Service.perform, Service.answerWith_eq] at agree
  rw [Cli.Rows.change_eq, Cli.Rows.change_eq]
  exact (execute_inStep hL hs c agree).told hs fun _ _ _ hnext =>
    .ok (hP.banner g (hnext.tables t).status)

include hL hP hs in
theorem run_delete (t : Topic) (eidUri : String) (yes : g.yes = true)
    (agree : L.Serves (s.used [.delete t eidUri]) s.network s'.network) :
    L.Steps L.CliErrors P s s' ((rowsOf t).delete g eidUri s) ((rowsOf t).delete g eidUri s') := by
  rw [used_singleton, Service.perform_delete] at agree
  rw [Cli.Rows.delete_eq t yes, Cli.Rows.delete_eq t yes]
  exact (delete_inStep hL hs eidUri agree).told hs fun _ _ _ hnext =>
    .ok (hP.banner g (hnext.tables t).status)

include hL hP hs in
theorem run_command (c : StoreCommand)
    (agree : L.Serves (s.used (c.call? g s.files).toList) s.network s'.network) :
    L.Steps L.CliErrors P s s' (c.run g s) (c.run g s') := by
  cases c with
  | list t sel =>
    have hrun := run_list (g := g) hL hP hs t sel agree
    cases t <;> exact hrun
  | get t eidUri =>
    have hrun := run_get (g := g) hL hP hs t eidUri agree
    cases t <;> exact hrun
  | lookup t eid =>
    have hrun : L.Steps L.CliErrors P s s' ((rowsOf t).ask g eid s) ((rowsOf t).ask g eid s') := by
      cases h : Cli.readAddress "eid" eid with
      | error e =>
        rw [Cli.Rows.ask, Cli.Rows.ask, h]
        exact .refl_error hs e
      | ok a =>
        rw [StoreCommand.call?, h] at agree
        exact run_ask hL hP hs t h agree
    cases t <;> exact hrun
  | writeMapping c m =>
    rw [StoreCommand.run, StoreCommand.run, hs.files]
    cases h : m.request s.files with
    | error e => exact .refl_error hs e
    | ok r =>
      rw [StoreCommand.call?, h] at agree
      exact run_change hL hP hs .mappings _ agree
  | writeKey c k =>
    rw [StoreCommand.run, StoreCommand.run]
    cases h : k.request with
    | error e => exact .refl_error hs e
    | ok r =>
      rw [StoreCommand.call?, h] at agree
      exact run_change hL hP hs .keys _ agree
  | delete t eidUri =>
    have hrun : L.Steps L.CliErrors P s s' ((rowsOf t).delete g eidUri s)
        ((rowsOf t).delete g eidUri s') := by
      cases h : g.yes with
      | false =>
        rw [Cli.Rows.delete, Cli.Rows.delete, h]
        exact .refl_error hs _
      | true =>
        rw [StoreCommand.call?, if_pos h] at agree
        exact run_delete hL hP hs t eidUri h agree
    cases t <;> exact hrun

theorem services_new (settings : Settings) (files : Files) {n n' : Rpc.Network}
    (listens : n'.listens = n.listens) :
    L.Services (.new settings files n) (.new settings files n') := by
  refine ⟨rfl, rfl, listens, fun t => ?_⟩
  cases t <;> exact ⟨rfl, .nil, .same _, rfl, rfl, rfl, rfl⟩

/-- Two runs: what is printed, how they end, what was sent, and that they leave the same but for the
network. -/
structure Runs (L : Likeness) (P : Printed → Printed → Prop) (w w' : World) (r r' : Cli.Run) :
    Prop where
  printed : P r.printed r'.printed
  outcome : Paired L.CliErrors (fun _ _ => True) r.outcome r'.outcome
  sent : ∃ qs qs', List.Forall₂ L.Requests qs qs' ∧ r.world.network = w.network.after qs ∧
    r'.world.network = w'.network.after qs'
  world : r'.world = { r.world with network := r'.world.network }

variable {w : World} {n : Rpc.Network}

theorem Runs.of_steps (hP : ∀ p, P p p) {x x' : Cli.Answer}
    (hx : L.Steps L.CliErrors P s s' x x') (hs : s.network = w.network) (hs' : s'.network = n) :
    L.Runs P w { w with network := n } (Cli.ended w x) (Cli.ended { w with network := n } x') := by
  obtain ⟨outcome, -, qs, qs', hsent, hnetwork, hnetwork'⟩ := hx
  rcases x with ⟨r, s₁⟩
  rcases x' with ⟨r', s₁'⟩
  rw [hs] at hnetwork
  rw [hs'] at hnetwork'
  cases outcome with
  | ok hp => exact ⟨hp, .ok trivial, ⟨qs, qs', hsent, hnetwork, hnetwork'⟩, rfl⟩
  | error he => exact ⟨hP _, .error he, ⟨qs, qs', hsent, hnetwork, hnetwork'⟩, rfl⟩

theorem Runs.offline (hP : ∀ p, P p p) (p : Printed) (o : Except Cli.Error Unit) {v : World}
    (hv : v.network = w.network) :
    L.Runs P w { w with network := n } ⟨p, o, v⟩ ⟨p, o, { v with network := n }⟩ :=
  ⟨hP p, .refl .same (fun _ => trivial) o,
    ⟨[], [], .nil, hv.trans w.network.after_nil.symm, n.after_nil.symm⟩, rfl⟩

include hL hP in
theorem runs_store (listens : n.listens = w.network.listens) (c : StoreCommand)
    (agree : L.Serves (c.used w g) w.network n) :
    L.Runs P w { w with network := n } (c.runIn w g) (c.runIn { w with network := n } g) := by
  have hsettings : g.settings ({ w with network := n } : World).config
      ({ w with network := n } : World).secrets ({ w with network := n } : World).configPath =
      g.settings w.config w.secrets w.configPath := rfl
  rw [StoreCommand.runIn, StoreCommand.runIn, hsettings]
  rw [StoreCommand.used] at agree
  cases h : g.settings w.config w.secrets w.configPath with
  | error e => exact .offline hP.refl _ _ rfl
  | ok settings =>
    rw [h] at agree
    have hs : L.Services (.new settings w.files w.network) (.new settings w.files n) :=
      services_new settings w.files listens
    have hconnect : (Service.new settings w.files n).connect =
        (Service.new settings w.files w.network).connect := by
      rw [Service.connect, Service.connect, hs.client]
    dsimp only
    rw [hconnect]
    cases (Service.new settings w.files w.network).connect with
    | error e => exact .offline hP.refl _ _ rfl
    | ok u =>
      change L.Runs P w _ (Cli.ended w (c.run g (.new settings w.files w.network)))
        (Cli.ended { w with network := n } (c.run g (.new settings w.files n)))
      exact .of_steps hP.refl (run_command hL hP hs c agree) rfl rfl

theorem runs_save (hP : ∀ p, P p p) (c : Config) (message : String) :
    L.Runs P w { w with network := n } (Cli.save w c message)
      (Cli.save { w with network := n } c message) := by
  rw [Cli.save, Cli.save]
  cases c.save with
  | error e => exact .offline hP _ _ rfl
  | ok text =>
    exact .offline hP (.message message) (.ok ()) (v := { w with configFile := some text }) rfl

theorem runs_config (hP : ∀ p, P p p) (c : Cli.ConfigCommand) :
    L.Runs P w { w with network := n } (c.run w g) (c.run { w with network := n } g) := by
  have hconfig : ({ w with network := n } : World).config = w.config := rfl
  cases c with
  | init | «show» => exact .offline hP _ _ rfl
  | set key value =>
    rw [Cli.ConfigCommand.run, Cli.ConfigCommand.run, hconfig]
    cases Cli.setValue ((w.config.profile? (g.profileName w.config)).getD .empty) key value with
    | error e => exact .offline hP _ _ rfl
    | ok p => exact runs_save hP _ _
  | profiles =>
    rw [Cli.ConfigCommand.run, Cli.ConfigCommand.run, hconfig]
    split_ifs <;> exact .offline hP _ _ rfl
  | use name =>
    rw [Cli.ConfigCommand.run, Cli.ConfigCommand.run, hconfig]
    cases w.config.profile? name with
    | none => exact .offline hP _ _ rfl
    | some p => exact runs_save hP _ _
  | setPassword =>
    rw [Cli.ConfigCommand.run, Cli.ConfigCommand.run, hconfig]
    cases w.config.profile? (g.profileName w.config) <;> exact .offline hP _ _ rfl

include hL hP in
/-- Two runs of the program with the same command line. -/
theorem runs_run (listens : n.listens = w.network.listens) {args : List String}
    (agree : L.Serves (Cli.used w args) w.network n) :
    (∃ u, Cli.run w args = .error u ∧ Cli.run { w with network := n } args = .error u) ∨
      ∃ r r', Cli.run w args = .ok r ∧ Cli.run { w with network := n } args = .ok r' ∧
        L.Runs P w { w with network := n } r r' := by
  rw [Cli.used] at agree
  rw [Cli.run, Cli.run]
  cases h : Cli.Options.read w.environment args with
  | error u => exact .inl ⟨u, rfl, rfl⟩
  | ok o =>
    rw [h] at agree
    rcases o with ⟨g, c⟩
    refine .inr ⟨_, _, rfl, rfl, ?_⟩
    cases c with
    | store c => exact runs_store hL hP listens c agree
    | config c => exact runs_config hP.refl c
    | completions shell => exact .offline hP.refl _ _ rfl

end Likeness

end EidMap
