import EidMap.Cli.Run
import EidMap.Proofs.Service.Execution

/-!
# The status after a failed request

A failed request is told under the label of the table or of the operation it was for. The label
keeps the status with which the program ends, except for answers that only their number tells apart.
So the status of a command about the store can be read off the exchange on which it failed.
-/

namespace EidMap.Cli

inductive Label
  | load (table : String)
  | operation (name : String)

def Label.relabel : Label → ServiceError → ServiceError
  | load table => .asLoadError table
  | operation name => .asOperationError name

def plainStatus (e : Rpc.Error) : ExitStatus := (Error.ofService (.ofRpc e)).status

def labelledStatus (l : Label) (e : Rpc.Error) : ExitStatus :=
  (Error.ofService (l.relabel (.ofRpc e))).status

/-- Only the number of the answer says that credentials or a resource were missing. -/
def ToldByNumber : Rpc.Error → Prop
  | .refused status _ => status = 401 ∨ status = 403 ∨ status = 404
  | _ => False

theorem plainStatus_refused (status : Nat) (messages : List String) :
    plainStatus (.refused status messages) =
      if status = 401 ∨ status = 403 then .auth
      else if status = 404 then .notFound
      else .general := by
  simp only [plainStatus, ServiceError.ofRpc, Error.ofService]
  split_ifs with hauth hmissing
  · rcases hauth with rfl | rfl <;> rfl
  · subst hmissing
    rfl
  · simp only [not_or] at hauth
    unfold Error.status
    split <;> simp_all

theorem labelledStatus_refused (l : Label) (status : Nat) (messages : List String) :
    labelledStatus l (.refused status messages) = .general := by
  cases l <;> rfl

theorem labelledStatus_eq_iff (l : Label) (e : Rpc.Error) :
    labelledStatus l e = plainStatus e ↔ ¬ToldByNumber e := by
  cases e with
  | refused status messages =>
    rw [labelledStatus_refused, plainStatus_refused, ToldByNumber]
    split_ifs with hauth hmissing
    · exact iff_of_false nofun (by omega)
    · exact iff_of_false nofun (by omega)
    · exact iff_of_true rfl (by omega)
  | transport fault url => cases fault <;> cases l <;> exact iff_of_true rfl not_false
  | unauthorized => cases l <;> exact iff_of_true rfl not_false
  | invalidUrl e => cases l <;> exact iff_of_true rfl not_false
  | tls message => cases l <;> exact iff_of_true rfl not_false
  | notFound path => cases l <;> exact iff_of_true rfl not_false
  | undecodable reason preview => cases l <;> exact iff_of_true rfl not_false

theorem labelledStatus_of_toldByNumber (l : Label) {e : Rpc.Error} (h : ToldByNumber e) :
    labelledStatus l e = .general := by
  cases e with
  | refused status messages => exact labelledStatus_refused l status messages
  | _ => exact h.elim

def replyStatus : Rpc.Reply → ExitStatus
  | .answer status body =>
    if status = 401 then .auth
    else if status = 404 ∧ Rpc.errorMessages body = [] then .notFound
    else .general
  | .hang => .timeout
  | .close | .truncate => .general

def failureStatus (q : Rpc.Request) (n : Rpc.Network) : ExitStatus :=
  if Rpc.Network.isWeb q.url = false then .general
  else if n.listens q.url = false then .connection
  else replyStatus (n.reply 0)

variable {q : Rpc.Request} {n : Rpc.Network} {e : Rpc.Error}

theorem labelledStatus_of_result (l : Label) {r : Rpc.Reply} {url : Url}
    (h : r.result url = .error e) : labelledStatus l e = replyStatus r := by
  cases r with
  | answer status body =>
    rw [replyStatus]
    rcases Rpc.Reply.result_eq_error h with ⟨hauth, rfl⟩ | ⟨hmissing, hsilent, rfl⟩ |
      ⟨hauth, hmissing, messages, rfl⟩
    · rw [if_pos hauth]
      cases l <;> rfl
    · rw [if_neg (by omega), if_pos ⟨hmissing, hsilent⟩]
      cases l <;> rfl
    · rw [if_neg hauth, if_neg hmissing, labelledStatus_refused]
  | close =>
    cases h
    cases l <;> rfl
  | truncate =>
    cases h
    cases l <;> rfl
  | hang =>
    cases h
    cases l <;> rfl

theorem labelledStatus_of_exchange (l : Label) (failed : (Rpc.Client.exchange q n).1 = .error e) :
    labelledStatus l e = failureStatus q n := by
  rw [failureStatus]
  split_ifs with hweb hlistens
  · rw [Rpc.Client.exchange, Rpc.Network.send, hweb] at failed
    cases failed
    cases l <;> rfl
  · rw [Rpc.Client.exchange, Rpc.Network.send, hlistens, Bool.of_not_eq_false hweb] at failed
    cases failed
    cases l <;> rfl
  · have hheard : n.hears q = true := by
      rw [Rpc.Network.hears, Bool.and_eq_true]
      exact ⟨Bool.of_not_eq_false hweb, Bool.of_not_eq_false hlistens⟩
    rw [Rpc.Client.exchange_of_hears hheard] at failed
    exact labelledStatus_of_result l failed

theorem failureStatus_of_isNotFound (failed : (Rpc.Client.exchange q n).1 = .error e)
    (missing : e.isNotFound = true) : failureStatus q n = .notFound := by
  rw [← labelledStatus_of_exchange (.load "") failed]
  cases e with
  | notFound path => rfl
  | _ => cases missing

def EndsAt {ε α : Type} (status : ε → ExitStatus) (q : Rpc.Request) (n : Rpc.Network)
    (o : Except ε α × Service) : Prop :=
  o.2.network = (Rpc.Client.exchange q n).2 ∧
    ∃ err, o.1 = .error err ∧ status err = failureStatus q n

theorem EndsAt.passed {ε ε' α β : Type} {status : ε → ExitStatus} {status' : ε' → ExitStatus}
    {o : Except ε α × Service} {o' : Except ε' β × Service} (h : EndsAt status q n o) (f : ε → ε')
    (same : ∀ err, status' (f err) = status err)
    (pass : ∀ err s, o = (.error err, s) → o' = (.error (f err), s)) : EndsAt status' q n o' := by
  obtain ⟨hnetwork, err, hresult, hstatus⟩ := h
  rw [pass err o.2 (Prod.ext hresult rfl)]
  exact ⟨hnetwork, f err, rfl, (same err).trans hstatus⟩

def serviceStatus (e : ServiceError) : ExitStatus := (Error.ofService e).status

variable {s : Service} {t : Topic} {α : Type}

theorem endsAt_of_relabel (l : Label) (failed : (Rpc.Client.exchange q n).1 = .error e)
    {o : Service.Outcome α × Service} (result : o.1 = .error (l.relabel (.ofRpc e)))
    (network : o.2.network = n.after (n.takes (some q))) : EndsAt serviceStatus q n o :=
  ⟨network.trans (Rpc.Client.exchange_network q n).symm, _, result,
    labelledStatus_of_exchange l failed⟩

theorem endsAt_refresh (t : Topic) (reading : s.reading? = some q)
    (failed : (Rpc.Client.exchange q s.network).1 = .error e) (found : e.isNotFound = false) :
    EndsAt serviceStatus q s.network (s.refresh t.shelf) := by
  have hload : s.load s.network = .error (.ofRpc e) := by
    rw [Service.load_of_error reading failed, found]
    rfl
  have hrefresh := Service.refresh_of_not_load (t := t) (T := t.shelf.get s) hload
  rw [Service.put_self, reading] at hrefresh
  rw [hrefresh]
  exact endsAt_of_relabel (.load (t.shelf.get s).name) failed rfl Service.network_put

theorem endsAt_lookup (t : Topic) (eidUri : String) (reading : s.reading? = some q)
    (failed : (Rpc.Client.exchange q s.network).1 = .error e) :
    EndsAt serviceStatus q s.network (s.lookup t.shelf eidUri) := by
  have hload := Service.load_of_error reading failed
  cases hmissing : e.isNotFound with
  | false =>
    rw [hmissing] at hload
    have hlookup := Service.lookup_of_not_load (t := t) (T := t.shelf.get s) hload eidUri
    rw [Service.put_self, reading] at hlookup
    rw [hlookup]
    exact endsAt_of_relabel (.load (t.shelf.get s).name) failed rfl Service.network_put
  | true =>
    -- The store is empty, so no row is found; a row that is not found has the same status.
    rw [hmissing] at hload
    have hlookup := Service.lookup_of_load (t := t) (T := t.shelf.get s) hload eidUri
    rw [Service.put_self, reading, t.first?_empty] at hlookup
    rw [hlookup]
    exact ⟨Service.network_put.trans (Rpc.Client.exchange_network q s.network).symm, _, rfl,
      (failureStatus_of_isNotFound failed hmissing).symm⟩

theorem endsAt_execute {c : EidMap.Command} (posting : s.commanding? c = some q)
    (failed : (Rpc.Client.exchange q s.network).1 = .error e) :
    EndsAt serviceStatus q s.network (s.execute c) := by
  obtain ⟨hresult, hnetwork⟩ := Service.execute_of_error posting failed
  exact endsAt_of_relabel (.operation c.operation.name) failed hresult hnetwork

theorem endsAt_delete_of_lookup {eidUri : String}
    (h : EndsAt serviceStatus q n (s.lookup t.shelf eidUri)) :
    EndsAt serviceStatus q n (s.delete t.shelf eidUri) :=
  h.passed id (fun _ => rfl) fun err s' ho => by rw [Service.delete, ho]; rfl

theorem endsAt_delete_of_load {eidUri : String} {d : Stored.Database} {a : t.Row}
    (load : s.load s.network = .ok d) (found : t.first? eidUri d = some a)
    (posting : s.posting? t.removal (t.shelf.removal a).body = some q)
    (failed : (Rpc.Client.exchange q (s.network.after (s.network.takes s.reading?))).1 =
      .error e) :
    EndsAt serviceStatus q (s.network.after (s.network.takes s.reading?))
      (s.delete t.shelf eidUri) := by
  have hlookup := Service.lookup_of_load (T := t.shelf.get s) load eidUri
  rw [Service.put_self, found] at hlookup
  have hpost := Service.post_of_error posting failed
  rw [Service.delete, hlookup]
  simp only [Service.sendRemoval_of_not_post hpost]
  refine endsAt_of_relabel (.operation t.removal.name) failed rfl ?_
  rw [posting]
  exact Service.network_put

def rowsOf : (t : Topic) → Rows t.Row
  | .mappings => mappings
  | .keys => keys

namespace Rows

variable {g : Globals} {r : Rows α} {eidUri : String}

theorem endsAt_list {sel : Selection} (h : EndsAt serviceStatus q n (s.refresh r.shelf)) :
    EndsAt Error.status q n (r.list g sel s) :=
  h.passed .ofService (fun _ => rfl) fun err s' ho => by rw [list, ho]

theorem exists_list {sel : Selection} {T : Table α} (h : (s.refresh r.shelf).1 = .ok T) :
    ∃ p, (r.list g sel s).1 = .ok p := by
  rw [list]
  rcases hrefresh : s.refresh r.shelf with ⟨_ | _, s'⟩
  · rw [hrefresh] at h
    cases h
  · exact ⟨_, rfl⟩

theorem endsAt_get (h : EndsAt serviceStatus q n (s.lookup r.shelf eidUri)) :
    EndsAt Error.status q n (r.get g eidUri s) :=
  h.passed .ofService (fun _ => rfl) fun err s' ho => by rw [get, ho]

theorem endsAt_ask {eid : String} {a : Address} (readable : readAddress "eid" eid = .ok a)
    (h : EndsAt serviceStatus q n (s.execute (r.lookup ⟨a⟩))) :
    EndsAt Error.status q n (r.ask g eid s) :=
  h.passed .ofService (fun _ => rfl) fun err s' ho => by simp only [ask, readable, ho]

theorem endsAt_change {c : EidMap.Command} (h : EndsAt serviceStatus q n (s.execute c)) :
    EndsAt Error.status q n (r.change g (.ok c) s) :=
  h.passed .ofService (fun _ => rfl) fun err s' ho => by simp only [change, ho]

theorem endsAt_delete (yes : g.yes = true)
    (h : EndsAt serviceStatus q n (s.delete r.shelf eidUri)) :
    EndsAt Error.status q n (r.delete g eidUri s) :=
  h.passed .ofService (fun _ => rfl) fun err s' ho => by
    rw [delete, yes, ho, Bool.not_true, if_neg Bool.false_ne_true]

end Rows

namespace StoreCommand

variable {g : Globals} {c : StoreCommand}

/-- A request on which a command depends, and the network it is sent on. The load after a change is
none of them. -/
inductive Sends (g : Globals) (s : Service) : StoreCommand → Rpc.Request → Rpc.Network → Prop
  | list {t : Topic} {sel : Selection} {q : Rpc.Request} (reading : s.reading? = some q) :
    Sends g s (.list t sel) q s.network
  | get {t : Topic} {eidUri : String} {q : Rpc.Request} (reading : s.reading? = some q) :
    Sends g s (.get t eidUri) q s.network
  | lookup {t : Topic} {eid : String} {a : Address} {q : Rpc.Request}
    (readable : readAddress "eid" eid = .ok a)
    (posting : s.commanding? ((rowsOf t).lookup ⟨a⟩) = some q) :
    Sends g s (.lookup t eid) q s.network
  | writeMapping {c : Change} {m : MappingWrite} {r : MappingRequest} {q : Rpc.Request}
    (readable : m.request s.files = .ok r) (posting : s.commanding? (mappingChange c r) = some q) :
    Sends g s (.writeMapping c m) q s.network
  | writeKey {c : Change} {k : KeyWrite} {r : KeyRequest} {q : Rpc.Request}
    (readable : k.request = .ok r) (posting : s.commanding? (keyChange c r) = some q) :
    Sends g s (.writeKey c k) q s.network
  | find {t : Topic} {eidUri : String} {q : Rpc.Request} (yes : g.yes = true)
    (reading : s.reading? = some q) : Sends g s (.delete t eidUri) q s.network
  | remove {t : Topic} {eidUri : String} {d : Stored.Database} {a : t.Row} {q : Rpc.Request}
    (yes : g.yes = true) (load : s.load s.network = .ok d) (found : t.first? eidUri d = some a)
    (posting : s.posting? t.removal (t.shelf.removal a).body = some q) :
    Sends g s (.delete t eidUri) q (s.network.after (s.network.takes s.reading?))

def ListsNothing (c : StoreCommand) (e : Rpc.Error) : Prop :=
  e.isNotFound = true ∧ ∃ t sel, c = .list t sel

theorem endsAt_run (sends : c.Sends g s q n) (failed : (Rpc.Client.exchange q n).1 = .error e)
    (h : ¬c.ListsNothing e) : EndsAt Error.status q n (c.run g s) := by
  cases sends with
  | @list t sel _ reading =>
    have hfound : e.isNotFound = false := Bool.of_not_eq_true fun he => h ⟨he, t, sel, rfl⟩
    have hrefresh := endsAt_refresh t reading failed hfound
    cases t <;> exact Rows.endsAt_list hrefresh
  | @get t eidUri _ reading =>
    have hlookup := endsAt_lookup t eidUri reading failed
    cases t <;> exact Rows.endsAt_get hlookup
  | @lookup t eid a _ readable posting =>
    have hexecute := endsAt_execute posting failed
    cases t <;> exact Rows.endsAt_ask readable hexecute
  | writeMapping readable posting =>
    rw [run, readable]
    exact Rows.endsAt_change (endsAt_execute posting failed)
  | writeKey readable posting =>
    rw [run, readable]
    exact Rows.endsAt_change (endsAt_execute posting failed)
  | @find t eidUri _ yes reading =>
    have hdelete := endsAt_delete_of_lookup (endsAt_lookup t eidUri reading failed)
    cases t <;> exact Rows.endsAt_delete yes hdelete
  | @remove t eidUri d a _ yes load found posting =>
    have hdelete := endsAt_delete_of_load load found posting failed
    cases t <;> exact Rows.endsAt_delete yes hdelete

theorem exists_run_of_listsNothing (sends : c.Sends g s q n)
    (failed : (Rpc.Client.exchange q n).1 = .error e) (h : c.ListsNothing e) :
    ∃ p, (c.run g s).1 = .ok p := by
  obtain ⟨hmissing, t, sel, rfl⟩ := h
  cases sends with
  | list reading =>
    have hload := Service.load_of_error reading failed
    rw [hmissing] at hload
    have hrefresh := Service.refresh_of_load (t := t) (T := t.shelf.get s) hload
    rw [Service.put_self] at hrefresh
    cases t <;> exact Rows.exists_list (congrArg Prod.fst hrefresh)

end StoreCommand

/-- Under every label an error keeps its status, except where only the number of the answer says
what is wrong. So a command about the store that fails on an exchange ends there, with the status of
that exchange: rejected credentials, a resource of which nothing is said, a request that takes too
long and a refused connection have one of their own whatever the command, forbidden requests and
missing resources with a message have none. A list of a store without a database is empty. -/
theorem status_of_data_command (l : Label) (e : Rpc.Error) :
    (labelledStatus l e = plainStatus e ↔ ¬ToldByNumber e) ∧
    (ToldByNumber e → labelledStatus l e = .general) ∧
    (∀ (g : Globals) (s : Service) (c : StoreCommand) (q : Rpc.Request) (n : Rpc.Network),
      c.Sends g s q n → (Rpc.Client.exchange q n).1 = .error e →
      (¬c.ListsNothing e → EndsAt Error.status q n (c.run g s)) ∧
      (c.ListsNothing e → ∃ p, (c.run g s).1 = .ok p)) := by
  refine ⟨labelledStatus_eq_iff l e, labelledStatus_of_toldByNumber l,
    fun g s c q n sends failed => ⟨fun hsome => ?_, fun hnothing => ?_⟩⟩
  · exact StoreCommand.endsAt_run sends failed hsome
  · exact StoreCommand.exists_run_of_listsNothing sends failed hnothing

theorem rejected_list_auth :
    ∃ err, ((StoreCommand.list .mappings ⟨none, none⟩).run
        ⟨none, none, none, none, .table, .auto, false, false, false, none⟩
        (Service.scripted [.answer 401 ""])).1 = .error err ∧ err.status = .auth := by
  rcases Rpc.Network.takes_cases _ (Service.scripted [.answer 401 ""]).reading? with hnone |
    ⟨q, hreading, hheard, -⟩
  · exact absurd hnone (Service.scripted_heard _)
  have hexchange : (Rpc.Client.exchange q (Service.scripted [.answer 401 ""]).network).1 =
      .error .unauthorized := by
    rw [Rpc.Client.exchange_of_hears hheard]
    rfl
  obtain ⟨-, -, hcommand⟩ := status_of_data_command (.load "mappings") .unauthorized
  obtain ⟨hends, -⟩ := hcommand _ _ _ q _ (.list hreading) hexchange
  obtain ⟨-, err, hrun, hstatus⟩ := hends fun hnothing => by cases hnothing.1
  refine ⟨err, hrun, hstatus.trans ?_⟩
  rw [← labelledStatus_of_exchange (.load "mappings") hexchange]
  rfl

/-- A forbidden load is filed under nothing, although the answer by itself is one about
credentials. -/
theorem forbidden_load_general :
    plainStatus (.refused 403 ["HTTP 403 Forbidden: denied"]) = .auth ∧
      labelledStatus (.load "mappings") (.refused 403 ["HTTP 403 Forbidden: denied"]) = .general :=
  ⟨rfl, rfl⟩

end EidMap.Cli
