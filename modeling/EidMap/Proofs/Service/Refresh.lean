import EidMap.Proofs.Rpc.Request
import EidMap.Proofs.Service.Shelf
import EidMap.Proofs.Table.Freshness

/-!
# One load of a table and one lookup in it

A call about a topic changes a service in two places only: the network, by the requests that were
received, and the table of the topic. What a load and a removal come to is told by the next reply of
the store; from that follow the closed forms of a refresh and of a lookup.
-/

namespace EidMap

namespace Table

variable {α : Type}

def shown (t : Table α) (xs : List α) : Table α :=
  (t.beginLoad.1.finishLoad t.beginLoad.2 (.ok xs)).1

def failed (t : Table α) (message : String) : Table α :=
  (t.beginLoad.1.finishLoad t.beginLoad.2 (.error message)).1

theorem shown_eq (T : Table α) (xs : List α) :
    T.shown xs = ⟨T.name, xs.map fun a => ⟨a, false, false⟩, .loaded, T.clock.next.now,
      T.generation + 1, some T.clock.next.now, T.clock.next.next⟩ := by
  simp [shown, beginLoad, finishLoad, told]

theorem failed_eq (T : Table α) (message : String) :
    T.failed message = ⟨T.name, T.rows, .loadError message, T.clock.next.now, T.generation + 1,
      T.loadedAt, T.clock.next.next⟩ := by
  simp [failed, beginLoad, finishLoad, told]

@[simp]
theorem items_shown (t : Table α) (xs : List α) : (t.shown xs).items = xs :=
  items_finishLoad t.beginLoad.1 xs

@[simp]
theorem status_shown (t : Table α) (xs : List α) : (t.shown xs).status = .loaded := by
  simp [shown, beginLoad, finishLoad, told]

@[simp]
theorem name_shown (t : Table α) (xs : List α) : (t.shown xs).name = t.name := by
  simp [shown, beginLoad, finishLoad, told]

@[simp]
theorem rows_failed (t : Table α) (message : String) : (t.failed message).rows = t.rows := by
  simp [failed, beginLoad, finishLoad, told]

@[simp]
theorem items_failed (t : Table α) (message : String) : (t.failed message).items = t.items := by
  rw [items, items, rows_failed]

@[simp]
theorem status_failed (t : Table α) (message : String) :
    (t.failed message).status = .loadError message := by
  simp [failed, beginLoad, finishLoad, told]

@[simp]
theorem rows_record (t : Table α) (op : String) (outcome : Except String Unit) :
    (t.record op outcome).rows = t.rows := by
  cases outcome <;> rfl

@[simp]
theorem generation_record (t : Table α) (op : String) (outcome : Except String Unit) :
    (t.record op outcome).generation = t.generation := by
  cases outcome <;> rfl

@[simp]
theorem items_record (t : Table α) (op : String) (outcome : Except String Unit) :
    (t.record op outcome).items = t.items := by
  rw [items, items, rows_record]

end Table

theorem Settings.base_of_client {s : Settings} {files : Files} {c : Rpc.Client}
    (h : s.client files = .ok c) : c.base = s.url := by
  rw [Settings.client] at h
  cases htls : s.tls with
  | customCa path =>
    simp only [htls] at h
    obtain ⟨_, -, h⟩ := Json.bind_eq_ok.1 h
    cases h
    rfl
  | systemDefaults | acceptInvalid =>
    simp only [htls] at h
    cases h
    rfl

namespace Service

def put (s : Service) (t : Topic) (n : Rpc.Network) (T : Table t.Row) : Service :=
  t.shelf.set { s with network := n } T

variable {s : Service} {t : Topic} {n : Rpc.Network} {T : Table t.Row}

@[simp]
theorem get_put : t.shelf.get (s.put t n T) = T := by cases t <;> rfl

@[simp]
theorem network_put : (s.put t n T).network = n := by cases t <;> rfl

@[simp]
theorem set_put (T' : Table t.Row) : t.shelf.set (s.put t n T) T' = s.put t n T' := by
  cases t <;> rfl

theorem put_self (s : Service) (t : Topic) : s.put t s.network (t.shelf.get s) = s := by
  cases t <;> rfl

@[simp]
theorem note_put (op : Rpc.Operation) (outcome : Except String Unit) :
    (s.put t n T).note t.shelf op outcome = s.put t n (T.record op.name outcome) := by
  rw [note, get_put, set_put]

def request? (s : Service) (r : Rpc.Client → Option Rpc.Request) : Option Rpc.Request :=
  s.client.toOption.bind r

section

variable {α : Type} {f : Rpc.Client → Rpc.Network → Except Rpc.Error α × Rpc.Network}
  {r : Rpc.Client → Option Rpc.Request} {g : Url → Rpc.Reply → Except Rpc.Error α}

theorem call_put (h : ∀ c, Rpc.Client.Exchanged n (r c) g (f c n)) :
    (s.put t n T).call f = ((({ s with network := n }).call f).1,
      s.put t (n.after (n.takes (s.request? r))) T) := by
  have hclient : (s.put t n T).client = s.client := by cases t <;> rfl
  have hclient' : ({ s with network := n } : Service).client = s.client := rfl
  have hnetwork : ∀ m, { s.put t n T with network := m } = s.put t m T := by
    intro m
    cases t <;> rfl
  rw [call, call, hclient, hclient', network_put, request?]
  cases s.client with
  | error e => exact congrArg (Prod.mk _) (congrArg (s.put t · T) n.after_nil.symm)
  | ok c =>
    have hf := h c
    dsimp only [Except.toOption, Option.bind_some]
    generalize f c n = o at hf ⊢
    cases hf with
    | unheard e hr =>
      rw [hr, Rpc.Network.after_nil]
      exact congrArg (Prod.mk _) (hnetwork n)
    | heard q hr =>
      rw [hr]
      cases g q.url (n.reply 0) <;> exact congrArg (Prod.mk _) (hnetwork _)

theorem call_eq_ok (h : ∀ c, Rpc.Client.Exchanged n (r c) g (f c n)) {Good : α → Prop}
    (good : ∀ url a, g url (n.reply 0) = .ok a ↔ Good a) {a : α} :
    (({ s with network := n }).call f).1 = .ok a ↔ n.takes (s.request? r) ≠ [] ∧ Good a := by
  have hclient : ({ s with network := n } : Service).client = s.client := rfl
  rw [call, hclient, request?]
  cases s.client with
  | error e => simp [Except.toOption, Rpc.Network.takes]
  | ok c =>
    have hf := h c
    dsimp only [Except.toOption, Option.bind_some]
    generalize f c n = o at hf ⊢
    cases hf with
    | unheard e hr => simp [hr]
    | heard q hr =>
      rw [← good q.url a, hr]
      cases g q.url (n.reply 0) <;> simp

theorem call_of_takes (h : ∀ c, Rpc.Client.Exchanged n (r c) g (f c n))
    (heard : n.takes (s.request? r) ≠ []) :
    ∃ url, (({ s with network := n }).call f).1 = (g url (n.reply 0)).mapError .ofRpc := by
  have hclient : ({ s with network := n } : Service).client = s.client := rfl
  rw [request?] at heard
  rw [call, hclient]
  cases hs : s.client with
  | error e =>
    rw [hs] at heard
    exact absurd rfl heard
  | ok c =>
    rw [hs] at heard
    have hf := h c
    dsimp only [Except.toOption, Option.bind_some] at heard ⊢
    generalize f c n = o at hf ⊢
    cases hf with
    | unheard e hr => exact absurd hr heard
    | heard q hr =>
      refine ⟨q.url, ?_⟩
      cases g q.url (n.reply 0) <;> rfl

theorem call_of_request {q : Rpc.Request} {x : Except Rpc.Error α}
    (request : s.request? r = some q) (h : ∀ c, r c = some q → (f c n).1 = x) :
    (({ s with network := n }).call f).1 = x.mapError .ofRpc := by
  have hclient : ({ s with network := n } : Service).client = s.client := rfl
  rw [request?] at request
  rw [call, hclient]
  cases hs : s.client with
  | error e =>
    rw [hs] at request
    cases request
  | ok c =>
    rw [hs] at request
    rw [← h c request]
    rcases hf : f c n with ⟨_ | _, m⟩ <;> simp only [hf] <;> rfl

end

def reading? (s : Service) : Option Rpc.Request := s.request? (·.reading?)

def posting? (s : Service) (op : Rpc.Operation) (body : Json) : Option Rpc.Request :=
  s.request? (·.posting? op body)

theorem base_of_client {c : Rpc.Client} (h : s.client = .ok c) : c.base = s.settings.url := by
  rw [client] at h
  split at h
  · rename_i hclient
    cases h
    exact Settings.base_of_client hclient
  · cases h

theorem request?_eq_some {r : Rpc.Client → Option Rpc.Request} {q : Rpc.Request} :
    s.request? r = some q ↔ ∃ c, s.client = .ok c ∧ r c = some q := by
  rw [request?]
  cases s.client <;> simp [Except.toOption]

theorem reading?_eq_some {q : Rpc.Request} :
    s.reading? = some q ↔ ∃ client url, s.client = .ok client ∧ client.databaseUrl = .ok url ∧
      q = client.getRequest url := by
  rw [reading?, request?_eq_some]
  refine exists_congr fun client => ?_
  cases h : client.databaseUrl <;> simp [Except.toOption, Rpc.Client.reading?, h, eq_comm]

theorem posting?_eq_some {op : Rpc.Operation} {body : Json} {q : Rpc.Request} :
    s.posting? op body = some q ↔ ∃ client url, s.client = .ok client ∧
      client.operationUrl op = .ok url ∧ q = client.postRequest url body := by
  rw [posting?, request?_eq_some]
  refine exists_congr fun client => ?_
  cases h : client.operationUrl op <;> simp [Except.toOption, Rpc.Client.posting?, h, eq_comm]

theorem asksDatabase_of_reading? {q : Rpc.Request} (h : s.reading? = some q) :
    q.received.AsksDatabase s.settings.url := by
  obtain ⟨client, url, hclient, hurl, rfl⟩ := reading?_eq_some.1 h
  exact base_of_client hclient ▸ Rpc.Client.asksDatabase_getRequest hurl

theorem asksOperation_of_posting? {op : Rpc.Operation} {body : Json} {q : Rpc.Request}
    (h : s.posting? op body = some q) : q.received.AsksOperation s.settings.url op.name body := by
  obtain ⟨client, url, hclient, hurl, rfl⟩ := posting?_eq_some.1 h
  exact base_of_client hclient ▸ Rpc.Client.asksOperation_postRequest hurl body

/-- A service with a client is heard by a store that listens behind its URL. -/
structure Connects (s : Service) : Prop where
  connected : ∃ c, s.client = .ok c
  listens : s.network.ListensBehind s.settings.url

theorem Connects.takes_ne_nil (h : s.Connects) (k : Rpc.Client.Call) :
    s.network.takes (s.request? k.request?) ≠ [] := by
  obtain ⟨c, hc⟩ := h.connected
  rw [request?, hc]
  exact Rpc.Client.takes_ne_nil (base_of_client hc ▸ h.listens) k

theorem Connects.reads (h : s.Connects) : s.network.takes s.reading? ≠ [] :=
  h.takes_ne_nil .database

theorem Connects.posts (h : s.Connects) (op : Rpc.Operation) (body : Json) :
    s.network.takes (s.posting? op body) ≠ [] :=
  h.takes_ne_nil (.removeRaw op body)

def load (s : Service) (n : Rpc.Network) : Outcome Stored.Database :=
  ({ s with network := n }).loadDatabase.1

def post (s : Service) (n : Rpc.Network) (op : Rpc.Operation) (body : Json) : Outcome Unit :=
  (({ s with network := n }).call fun c => c.removeRaw op body).1

theorem load_eq_ok {d : Stored.Database} :
    s.load n = .ok d ↔ n.takes s.reading? ≠ [] ∧ (n.reply 0).Gives d :=
  call_eq_ok (fun c => c.exchanged_mappingDatabase n) fun _ _ => Rpc.Reply.database_eq_ok

theorem load_of_takes (heard : n.takes s.reading? ≠ []) :
    ∃ url, s.load n = ((n.reply 0).database url).mapError .ofRpc :=
  call_of_takes (fun c => c.exchanged_mappingDatabase n) heard

theorem post_eq_ok {op : Rpc.Operation} {body : Json} :
    s.post n op body = .ok () ↔ n.takes (s.posting? op body) ≠ [] ∧ (n.reply 0).Accepts :=
  call_eq_ok (fun c => c.exchanged_removeRaw op body n) fun _ _ => Rpc.Reply.acceptance_eq_ok

theorem load_of_error {q : Rpc.Request} {e : Rpc.Error} (reading : s.reading? = some q)
    (failed : (Rpc.Client.exchange q n).1 = .error e) :
    s.load n = if e.isNotFound then .ok .empty else .error (.ofRpc e) := by
  have hcall := call_of_request (n := n) reading fun c hc =>
    Rpc.Client.mappingDatabase_of_error hc failed
  refine hcall.trans ?_
  split_ifs <;> rfl

theorem post_of_error {q : Rpc.Request} {e : Rpc.Error} {op : Rpc.Operation} {body : Json}
    (posting : s.posting? op body = some q)
    (failed : (Rpc.Client.exchange q n).1 = .error e) : s.post n op body = .error (.ofRpc e) :=
  call_of_request posting fun _ hc => Rpc.Client.removeRaw_of_error hc failed

theorem loadDatabase_put :
    (s.put t n T).loadDatabase = (s.load n, s.put t (n.after (n.takes s.reading?)) T) :=
  call_put fun c => c.exchanged_mappingDatabase n

theorem refresh_of_load {d : Stored.Database} (h : s.load n = .ok d) :
    (s.put t n T).refresh t.shelf = (.ok (T.shown (t.shelf.rows d)),
      s.put t (n.after (n.takes s.reading?)) (T.shown (t.shelf.rows d))) := by
  rw [refresh, get_put]
  simp only [set_put, loadDatabase_put, h, get_put, Table.shown]

theorem refresh_of_not_load {e : ServiceError} (h : s.load n = .error e) :
    (s.put t n T).refresh t.shelf = (.error (e.asLoadError T.name),
      s.put t (n.after (n.takes s.reading?)) (T.failed (e.asLoadError T.name).message)) := by
  have hname : T.beginLoad.1.name = T.name := rfl
  rw [refresh, get_put]
  simp only [set_put, loadDatabase_put, h, get_put, Table.failed, hname]

theorem reload_of_load {d : Stored.Database} (h : s.load n = .ok d) (op : Rpc.Operation) :
    (s.put t n T).reload t.shelf op = s.put t (n.after (n.takes s.reading?))
      ((T.shown (t.shelf.rows d)).record op.name (.ok ())) := by
  rw [reload, refresh_of_load h]
  exact note_put op (.ok ())

theorem reload_of_not_load {e : ServiceError} (h : s.load n = .error e) (op : Rpc.Operation) :
    (s.put t n T).reload t.shelf op = s.put t (n.after (n.takes s.reading?))
      (T.failed (e.asLoadError T.name).message) := by
  rw [reload, refresh_of_not_load h]

theorem lookup_of_load {d : Stored.Database} (h : s.load n = .ok d) (uri : String) :
    (s.put t n T).lookup t.shelf uri =
      (match t.first? uri d with
        | some a => .ok a
        | none => .error (.notFound t.shelf.entity uri),
      s.put t (n.after (n.takes s.reading?)) (T.shown (t.shelf.rows d))) := by
  rw [lookup, refresh_of_load h]
  simp only [Table.find?, Table.items_shown, Topic.first?]
  cases (t.shelf.rows d).find? fun a => t.shelf.eidUri a == uri <;> rfl

theorem lookup_of_not_load {e : ServiceError} (h : s.load n = .error e) (uri : String) :
    (s.put t n T).lookup t.shelf uri = (.error (e.asLoadError T.name),
      s.put t (n.after (n.takes s.reading?)) (T.failed (e.asLoadError T.name).message)) := by
  rw [lookup, refresh_of_not_load h]

theorem sendRemoval_of_post {a : t.Row}
    (h : s.post n t.removal (t.shelf.removal a).body = .ok ()) :
    (s.put t n T).sendRemoval t.shelf (t.shelf.removal a) =
      (.ok (), s.put t (n.after (n.takes (s.posting? t.removal (t.shelf.removal a).body))) T) := by
  rw [post] at h
  simp only [sendRemoval, t.operation_removal a,
    call_put fun c => c.exchanged_removeRaw t.removal (t.shelf.removal a).body n, h]
  rfl

theorem sendRemoval_of_not_post {a : t.Row} {e : ServiceError}
    (h : s.post n t.removal (t.shelf.removal a).body = .error e) :
    (s.put t n T).sendRemoval t.shelf (t.shelf.removal a) =
      (.error (e.asOperationError t.removal.name),
        s.put t (n.after (n.takes (s.posting? t.removal (t.shelf.removal a).body)))
          (T.record t.removal.name (.error (e.asOperationError t.removal.name).message))) := by
  rw [post] at h
  simp only [sendRemoval, t.operation_removal a,
    call_put fun c => c.exchanged_removeRaw t.removal (t.shelf.removal a).body n, h, note_put]
  rfl

def scripted (script : List Rpc.Reply) : Service :=
  .new ⟨⟨"http", some ⟨"", none, .domain "odl", none⟩, .segments [""], none, none⟩, none, none,
    .systemDefaults, 30000⟩ [] ⟨fun _ => true, script, []⟩

theorem connects_scripted (script : List Rpc.Reply) : (scripted script).Connects := by
  have haccepted : (Url.read "http://odl").toOption = some (scripted []).settings.url := by
    decide +kernel
  refine ⟨⟨_, rfl⟩, ⟨"http://odl", ?_⟩, rfl, fun _ _ _ => rfl⟩
  cases h : Url.read "http://odl" with
  | error e =>
    rw [h] at haccepted
    cases haccepted
  | ok u =>
    rw [h] at haccepted
    exact congrArg Except.ok (Option.some.inj haccepted)

theorem scripted_heard (script : List Rpc.Reply) :
    (scripted script).network.takes (scripted script).reading? ≠ [] :=
  (connects_scripted script).reads

end Service

end EidMap
