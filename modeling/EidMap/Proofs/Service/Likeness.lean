import EidMap.Proofs.Paired
import EidMap.Proofs.Service.Deletion
import EidMap.Proofs.Service.Execution

/-!
# Services that belong together

Two services may differ in errors, rows and posted bodies. Which of these belong together is left
open (`Likeness`); tables, banners, requests and replies belong together if their parts do. What is
asked of a reply is only what the call that it answers reads out of it (`Use`).
-/

namespace EidMap

/-- What a request reads out of its answer: the database, what was asked for, or no more than that
the store took it. -/
inductive Use
  | database
  | key
  | mapping
  | change
  | removal
deriving DecidableEq

def Command.use : Command → Use
  | .getKey _ => .key
  | .getMapping _ => .mapping
  | _ => .change

namespace Service

def sentTo (s s₁ : Service) : Nat := s₁.network.received.length - s.network.received.length

def Sends (us : List Use) (s s₁ : Service) : Prop :=
  ∃ sent, s₁.network = s.network.after sent ∧ sent.length ≤ us.length

def andThen {α β : Type} (x : Outcome α × Service) (f : α → Service → Outcome β × Service) :
    Outcome β × Service :=
  match x with
  | (.ok a, s) => f a s
  | (.error e, s) => (.error e, s)

theorem sentTo_eq {s s₁ : Service} {sent : List Rpc.Request}
    (h : s₁.network = s.network.after sent) : s.sentTo s₁ = sent.length := by
  rw [sentTo, h, Rpc.Network.after, List.length_append, Nat.add_sub_cancel_left]

section

variable {s s₁ : Service} {q : Option Rpc.Request}
  (h : s₁.network = s.network.after (s.network.takes q))

include h in
theorem sends_of_takes (u : Use) : Sends [u] s s₁ :=
  ⟨_, h, Rpc.Network.length_takes_le _ _⟩

include h in
theorem sentTo_of_takes (heard : s.network.takes q ≠ []) : s.sentTo s₁ = 1 := by
  rw [sentTo_eq h]
  exact Nat.le_antisymm (Rpc.Network.length_takes_le _ _) (List.length_pos_iff.2 heard)

end

theorem Sends.andThen {α β : Type} {us vs : List Use} {s : Service} {x : Outcome α × Service}
    {f : α → Service → Outcome β × Service} (h : Sends us s x.2)
    (second : ∀ a, x.1 = .ok a → Sends vs x.2 (f a x.2).2) :
    Sends (us ++ vs) s (Service.andThen x f).2 := by
  obtain ⟨sent, hsent, hlength⟩ := h
  rcases x with ⟨e | a, s₁⟩
  · exact ⟨sent, hsent, by rw [List.length_append]; omega⟩
  · obtain ⟨rest, hrest, hle⟩ := second a rfl
    refine ⟨sent ++ rest, ?_, ?_⟩
    · rw [Service.andThen, hrest, hsent, Rpc.Network.after_after]
    · rw [List.length_append, List.length_append]
      exact Nat.add_le_add hlength hle

@[simp]
theorem put_put {s : Service} {t : Topic} (n m : Rpc.Network) (T U : Table t.Row) :
    (s.put t n T).put t m U = s.put t m U := by
  cases t <;> rfl

end Service

/-- Errors, rows and posted bodies that belong together. -/
structure Likeness where
  error : ServiceError → ServiceError → Prop
  row : (t : Topic) → t.Row → t.Row → Prop
  body : Json → Json → Prop

namespace Likeness

variable (L : Likeness)

structure Lawful : Prop where
  error_refl : ∀ e, L.error e e
  error_load : ∀ {e e'} (table : String), L.error e e' →
    L.error (e.asLoadError table) (e'.asLoadError table)
  error_operation : ∀ {e e'} (operation : String), L.error e e' →
    L.error (e.asOperationError operation) (e'.asOperationError operation)
  row_refl : ∀ t a, L.row t a a
  row_eidUri : ∀ {t a a'}, L.row t a a' → t.shelf.eidUri a' = t.shelf.eidUri a
  row_body : ∀ {t a a'}, L.row t a a' →
    L.body (t.shelf.removal a).body (t.shelf.removal a').body
  body_refl : ∀ v, L.body v v

def rpcError (e e' : Rpc.Error) : Prop := L.error (.ofRpc e) (.ofRpc e')

def Databases (d d' : Stored.Database) : Prop :=
  ∀ t : Topic, List.Forall₂ (L.row t) (t.shelf.rows d) (t.shelf.rows d')

def Found {β : Type} (t : Topic) (row : Address → β → t.Row) (o o' : Option (Option β)) : Prop :=
  Option.Rel (fun b b' => ∀ eid, L.row t (row eid b) (row eid b')) (o.getD none) (o'.getD none)

/-- Replies that belong together for what is read out of them. -/
def Agrees : Use → Rpc.Reply → Rpc.Reply → Prop
  | .database, r, r' => ∀ url, Paired L.rpcError L.Databases (r.database url) (r'.database url)
  | .key, r, r' => ∀ url, Paired L.rpcError (L.Found .keys Service.foundKey)
      (r.posted (Rpc.Client.readFound "struct GetKeyOutput"
        (Json.optional "mapping-authkey" Stored.Secret.read)) url)
      (r'.posted (Rpc.Client.readFound "struct GetKeyOutput"
        (Json.optional "mapping-authkey" Stored.Secret.read)) url)
  | .mapping, r, r' => ∀ url, Paired L.rpcError (L.Found .mappings Service.foundMapping)
      (r.posted (Rpc.Client.readFound "struct GetMappingOutput"
        (Json.optional "mapping-record" Stored.Record.read)) url)
      (r'.posted (Rpc.Client.readFound "struct GetMappingOutput"
        (Json.optional "mapping-record" Stored.Record.read)) url)
  | .change, r, r' => ∀ url, Paired L.rpcError (fun _ _ => True)
      (r.posted (Rpc.Client.readOutput Json.value .null) url)
      (r'.posted (Rpc.Client.readOutput Json.value .null) url)
  | .removal, r, r' => ∀ url, Paired L.rpcError (fun _ _ => True) (r.acceptance url)
      (r'.acceptance url)

inductive Statuses : Status → Status → Prop
  | same (s : Status) : Statuses s s
  | loadError {e e' : ServiceError} (h : L.error e e') :
    Statuses (.loadError e.message) (.loadError e'.message)
  | operationFailed (operation : String) {e e' : ServiceError} (h : L.error e e') :
    Statuses (.operationFailed operation e.message) (.operationFailed operation e'.message)

theorem Statuses.imp {M : Likeness} {S S' : Status} (h : L.Statuses S S')
    (weaker : ∀ e e', L.error e e' → M.error e e') : M.Statuses S S' := by
  cases h with
  | same => exact .same S
  | loadError he => exact .loadError (weaker _ _ he)
  | operationFailed op he => exact .operationFailed op (weaker _ _ he)

structure Rows (t : Topic) (r r' : Row t.Row) : Prop where
  item : L.row t r.item r'.item
  detailOpen : r'.detailOpen = r.detailOpen
  deleteOpen : r'.deleteOpen = r.deleteOpen

structure Tables (t : Topic) (T T' : Table t.Row) : Prop where
  name : T'.name = T.name
  rows : List.Forall₂ (L.Rows t) T.rows T'.rows
  status : L.Statuses T.status T'.status
  generation : T'.generation = T.generation
  setAt : T'.setAt = T.setAt
  loadedAt : T'.loadedAt = T.loadedAt
  clock : T'.clock = T.clock

structure Requests (q q' : Rpc.Request) : Prop where
  method : q'.method = q.method
  url : q'.url = q.url
  headers : q'.headers = q.headers
  body : Option.Rel L.body q.body q'.body

structure Services (s s' : Service) : Prop where
  settings : s'.settings = s.settings
  files : s'.files = s.files
  listens : s'.network.listens = s.network.listens
  tables : ∀ t : Topic, L.Tables t (t.shelf.get s) (t.shelf.get s')

inductive Results : Service.Result → Service.Result → Prop
  | done : Results .done .done
  | key {k k' : KeyEntry} (h : L.row .keys k k') : Results (.key k) (.key k')
  | mapping {m m' : Mapping} (h : L.row .mappings m m') : Results (.mapping m) (.mapping m')

/-- A call of two services about one topic: what is sent, what comes out, and the table that is
left. -/
inductive Twins {α β : Type} (t : Topic) (P : α → β → Prop) (s s' : Service) :
    Service.Outcome α × Service → Service.Outcome β × Service → Prop
  | mk {qs qs' : List Rpc.Request} {r : Service.Outcome α} {r' : Service.Outcome β}
    {T T' : Table t.Row} (sent : List.Forall₂ L.Requests qs qs') (outcome : Paired L.error P r r')
    (table : L.Tables t T T') :
    Twins t P s s' (r, s.put t (s.network.after qs) T) (r', s'.put t (s'.network.after qs') T')

def Serves (us : List Use) (n n' : Rpc.Network) : Prop :=
  ∀ i u, us[i]? = some u → L.Agrees u (n.reply i) (n'.reply i)

/-- A call of two services that goes in step if the replies that the first one uses up belong
together. -/
def InStep {α β : Type} (t : Topic) (us : List Use) (P : α → β → Prop) (s s' : Service)
    (x : Service.Outcome α × Service) (x' : Service.Outcome β × Service) : Prop :=
  L.Serves (us.take (s.sentTo x.2)) s.network s'.network → L.Twins t P s s' x x'

end Likeness

theorem rel_getElem? {α β : Type} {R : α → β → Prop} {xs : List α} {ys : List β}
    (h : List.Forall₂ R xs ys) (i : Nat) : Option.Rel R xs[i]? ys[i]? := by
  induction h generalizing i with
  | nil => exact .none
  | cons hab _ ih =>
    cases i with
    | zero => exact .some hab
    | succ i => exact ih i

theorem forall₂_set {α β : Type} {R : α → β → Prop} {xs : List α} {ys : List β}
    (h : List.Forall₂ R xs ys) (i : Nat) {a : α} {b : β} (hab : R a b) :
    List.Forall₂ R (xs.set i a) (ys.set i b) := by
  induction h generalizing i with
  | nil => exact .nil
  | cons hxy hrest ih =>
    cases i with
    | zero => exact .cons hab hrest
    | succ i => exact .cons hxy (ih i)

namespace Likeness

variable {L : Likeness} {t : Topic} {T T' : Table t.Row}

theorem Tables.items (h : L.Tables t T T') : List.Forall₂ (L.row t) T.items T'.items :=
  List.rel_map (fun _ _ hr => hr.item) h.rows

theorem Tables.shown (h : L.Tables t T T') {xs ys : List t.Row}
    (hxs : List.Forall₂ (L.row t) xs ys) : L.Tables t (T.shown xs) (T'.shown ys) := by
  have hrows : List.Forall₂ (L.Rows t) (xs.map fun a => Row.mk a false false)
      (ys.map fun a => Row.mk a false false) :=
    List.rel_map (fun _ _ ha => ⟨ha, rfl, rfl⟩) hxs
  rw [Table.shown_eq, Table.shown_eq, h.name, h.generation, h.clock]
  exact ⟨rfl, hrows, .same _, rfl, rfl, rfl, rfl⟩

theorem Tables.failed (h : L.Tables t T T') {e e' : ServiceError} (he : L.error e e') :
    L.Tables t (T.failed e.message) (T'.failed e'.message) := by
  rw [Table.failed_eq, Table.failed_eq, h.name, h.generation, h.loadedAt, h.clock]
  exact ⟨rfl, h.rows, .loadError he, rfl, rfl, rfl, rfl⟩

theorem Tables.succeeded (h : L.Tables t T T') (operation : String) :
    L.Tables t (T.record operation (.ok ())) (T'.record operation (.ok ())) :=
  ⟨h.name, h.rows, .same _, h.generation, congrArg Clock.now h.clock, h.loadedAt,
    congrArg Clock.next h.clock⟩

theorem Tables.refused (h : L.Tables t T T') (operation : String) {e e' : ServiceError}
    (he : L.error e e') :
    L.Tables t (T.record operation (.error e.message)) (T'.record operation (.error e'.message)) :=
  ⟨h.name, h.rows, .operationFailed operation he, h.generation, congrArg Clock.now h.clock,
    h.loadedAt, congrArg Clock.next h.clock⟩

theorem Tables.toggle (h : L.Tables t T T') (i : Nat) (p : Panel) :
    L.Tables t (T.toggle i p).1 (T'.toggle i p).1 ∧ (T'.toggle i p).2 = (T.toggle i p).2 := by
  have hrow := rel_getElem? h.rows i
  rw [Table.toggle, Table.toggle]
  cases hr : T.rows[i]? with
  | none =>
    rw [hr] at hrow
    generalize T'.rows[i]? = o at hrow ⊢
    cases hrow
    exact ⟨h, rfl⟩
  | some r =>
    rw [hr] at hrow
    generalize T'.rows[i]? = o at hrow ⊢
    cases hrow with
    | some hrr =>
      have hclosed : List.Forall₂ (L.Rows t) (T.rows.map Row.closed) (T'.rows.map Row.closed) :=
        List.rel_map (fun _ _ hr => ⟨hr.item, rfl, rfl⟩) h.rows
      refine ⟨⟨h.name, forall₂_set hclosed i ?_, h.status, h.generation, h.setAt, h.loadedAt,
        h.clock⟩, rfl⟩
      cases p with
      | detail => exact ⟨hrr.item, congrArg not hrr.detailOpen, rfl⟩
      | delete => exact ⟨hrr.item, rfl, congrArg not hrr.deleteOpen⟩

end Likeness

end EidMap
