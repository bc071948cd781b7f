import EidMap.Proofs.Rpc.Fetches
import EidMap.Proofs.Service.Session
import EidMap.Proofs.Table.Changes

/-!
# What a call does to its table

Every call is about one of the two tables, or about none. What it does is a list of changes of that
table, and of nothing else but the network: the loads that succeeded brought the rows of the databases
that the store gave out during the call, in that order. A call is put together of such steps as the code
puts it together, so each step is traced once.
-/

namespace EidMap

open Table (Change)

namespace Rpc.Operation

def topic : Operation → Topic
  | .addKey | .getKey | .updateKey | .removeKey => .keys
  | .addMapping | .getMapping | .updateMapping | .removeMapping => .mappings

end Rpc.Operation

theorem Command.topic_eq (c : Command) : c.topic = c.operation.topic := by
  cases c <;> rfl

namespace Service

namespace Call

def topic? : Call → Option Topic
  | .connect => none
  | .refresh t | .lookup t _ | .delete t _ | .toggle t _ _ => some t
  | .execute c => some c.operation.topic

def operation? : Call → Option Rpc.Operation
  | .delete t _ => some t.removal
  | .execute c => some c.operation
  | _ => none

/-- How many loads a call has begun when it ends. -/
def loads : Call → Outcome Answer → Nat
  | .refresh _, _ | .lookup .., _ => 1
  | .delete .., .ok _ => 2
  | .delete .., .error _ => 1
  | .execute c, .ok _ => if c.operation.isWrite then 1 else 0
  | .connect, _ | .toggle .., _ | .execute _, .error _ => 0

def isToggle : Call → Bool
  | .toggle .. => true
  | _ => false

end Call

variable {s s₁ s₂ : Service} {t : Topic}

/-- On the way to another state of a service nothing was done but some changes of one table, with what
the store gave out in the meantime. -/
structure Does (s : Service) (t : Topic) (cs : List (Change t.Row)) (s' : Service) : Prop where
  left : s' = s.put t s'.network ((t.shelf.get s).changed cs)
  sent : ∃ rs, s'.network = s.network.after rs
  brought : cs.filterMap Change.brought? =
    (s.network.databases s'.network).map t.shelf.rows

theorem Does.get {cs : List (Change t.Row)} (h : Does s t cs s₁) :
    t.shelf.get s₁ = (t.shelf.get s).changed cs := by
  rw [h.left, get_put]

theorem Does.get_of_ne {cs : List (Change t.Row)} (h : Does s t cs s₁) {u : Topic} (hu : t ≠ u) :
    u.shelf.get s₁ = u.shelf.get s := by
  rw [h.left]
  cases t <;> cases u <;> first | rfl | exact absurd rfl hu

theorem does_put {rs : List Rpc.Request} {cs : List (Change t.Row)}
    (brought : cs.filterMap Change.brought? =
      (s.network.databases (s.network.after rs)).map t.shelf.rows) :
    Does s t cs (s.put t (s.network.after rs) ((t.shelf.get s).changed cs)) where
  left := by rw [network_put]
  sent := ⟨rs, network_put⟩
  brought := by rwa [network_put]

theorem Does.trans {cs ds : List (Change t.Row)} (h : Does s t cs s₁) (h' : Does s₁ t ds s₂) :
    Does s t (cs ++ ds) s₂ := by
  obtain ⟨rs, hrs⟩ := h.sent
  obtain ⟨qs, hqs⟩ := h'.sent
  have hdatabases : s.network.databases s₂.network =
      s.network.databases s₁.network ++ s₁.network.databases s₂.network := by
    rw [hqs, hrs, ← Rpc.Network.databases_append, Rpc.Network.after_after]
  refine ⟨?_, ⟨rs ++ qs, by rw [hqs, hrs, Rpc.Network.after_after]⟩, ?_⟩
  · calc
      s₂ = s₁.put t s₂.network ((t.shelf.get s₁).changed ds) := h'.left
      _ = (s.put t s₁.network ((t.shelf.get s).changed cs)).put t s₂.network
          (((t.shelf.get s).changed cs).changed ds) := by rw [← h.left, ← h.get]
      _ = s.put t s₂.network ((t.shelf.get s).changed (cs ++ ds)) := by
        rw [put_put, Table.changed_append]
  · rw [List.filterMap_append, h.brought, h'.brought, hdatabases, List.map_append]

theorem databases_reading (s : Service) (n : Rpc.Network) :
    n.databases (n.after (n.takes s.reading?)) = (s.load n).toOption.toList := by
  have hload : ∀ d, (s.load n).toOption = some d ↔ s.load n = .ok d := by
    intro d
    cases s.load n <;> simp [Except.toOption]
  rw [Rpc.Network.databases, Rpc.Network.exchanges_after]
  rcases n.takes_cases s.reading? with hnone | ⟨q, hq, -, hsome⟩
  · have hfailed : (s.load n).toOption = none := by
      rw [Option.eq_none_iff_forall_ne_some]
      intro d hd
      exact (load_eq_ok.1 ((hload d).1 hd)).1 hnone
    rw [hnone, hfailed]
    rfl
  · obtain ⟨client, url, -, -, rfl⟩ := reading?_eq_some.1 hq
    have hfetched : Rpc.fetched? ((client.getRequest url).received, n.reply 0) =
        (s.load n).toOption := by
      refine Option.ext fun d => ?_
      rw [hload, load_eq_ok, Rpc.fetched?_eq_some, hsome]
      exact and_congr_left fun _ => iff_of_true rfl (List.cons_ne_nil _ _)
    rw [hsome, ← hfetched]
    simp only [List.mapIdx_cons, List.mapIdx_nil, List.filterMap_cons, List.filterMap_nil]
    cases Rpc.fetched? ((client.getRequest url).received, n.reply 0) <;> rfl

theorem databases_posting (s : Service) (n : Rpc.Network) (op : Rpc.Operation) (body : Json) :
    n.databases (n.after (n.takes (s.posting? op body))) = [] := by
  refine Rpc.Network.databases_posted fun q hq => ?_
  rw [posting?, request?] at hq
  obtain ⟨client, -, hq⟩ := Option.bind_eq_some_iff.1 hq
  obtain ⟨url, -, rfl⟩ := Option.map_eq_some_iff.1 hq
  rfl

theorem does_refresh (s : Service) (t : Topic) :
    (∃ e message, (s.refresh t.shelf).1 = .error e ∧
      Does s t [.load (.error message)] (s.refresh t.shelf).2) ∨
    ∃ T d, (s.refresh t.shelf).1 = .ok T ∧
      Does s t [.load (.ok (t.shelf.rows d))] (s.refresh t.shelf).2 := by
  have hdatabases := databases_reading s s.network
  rcases Likeness.refresh_cases s t with ⟨e, hload, h⟩ | ⟨d, hload, h⟩
  · rw [hload] at hdatabases
    rw [h]
    refine .inl ⟨_, (e.asLoadError (t.shelf.get s).name).message, rfl, does_put ?_⟩
    rw [hdatabases]
    rfl
  · rw [hload] at hdatabases
    rw [h]
    refine .inr ⟨_, d, rfl, does_put ?_⟩
    rw [hdatabases]
    rfl

theorem does_sendRemoval (s : Service) (a : t.Row) :
    (∃ e message, (s.sendRemoval t.shelf (t.shelf.removal a)).1 = .error e ∧
      Does s t [.note t.removal.name (.error message)]
        (s.sendRemoval t.shelf (t.shelf.removal a)).2) ∨
    (s.sendRemoval t.shelf (t.shelf.removal a)).1 = .ok () ∧
      Does s t [] (s.sendRemoval t.shelf (t.shelf.removal a)).2 := by
  have hdatabases := databases_posting s s.network t.removal (t.shelf.removal a).body
  rcases Likeness.sendRemoval_cases s a with ⟨e, -, h⟩ | ⟨-, h⟩
  · rw [h]
    refine .inl ⟨_, (e.asOperationError t.removal.name).message, rfl, does_put ?_⟩
    rw [hdatabases]
    rfl
  · rw [h]
    refine .inr ⟨rfl, does_put ?_⟩
    rw [hdatabases]
    rfl

theorem does_note (s : Service) (t : Topic) (op : Rpc.Operation) (outcome : Except String Unit) :
    Does s t [.note op.name outcome] (s.note t.shelf op outcome) := by
  rw [Likeness.note_eq]
  refine does_put ?_
  rw [Rpc.Network.after_nil, Rpc.Network.databases_self]
  rfl

theorem does_reload (s : Service) (t : Topic) (op : Rpc.Operation) :
    (∃ message, Does s t [.load (.error message)] (s.reload t.shelf op)) ∨
    ∃ d, Does s t [.load (.ok (t.shelf.rows d)), .note op.name (.ok ())]
      (s.reload t.shelf op) := by
  have hrefresh := does_refresh s t
  rw [reload]
  generalize s.refresh t.shelf = x at hrefresh ⊢
  obtain ⟨r, s₁⟩ := x
  rcases hrefresh with ⟨e, message, rfl, h⟩ | ⟨T, d, rfl, h⟩
  · exact .inl ⟨message, h⟩
  · exact .inr ⟨d, h.trans (does_note s₁ t op (.ok ()))⟩

theorem does_commanded (s : Service) (c : Command) :
    (∃ e message, (Likeness.commanded s c).1 = .error e ∧
      Does s c.topic [.note c.operation.name (.error message)] (Likeness.commanded s c).2) ∨
    ∃ x, (Likeness.commanded s c).1 = .ok x ∧
      Does s c.topic [] (Likeness.commanded s c).2 := by
  have hdatabases := databases_posting s s.network c.operation (Rpc.input c.posted)
  rcases Likeness.commanded_cases s c with ⟨e, -, h⟩ | ⟨x, -, h⟩
  · rw [h]
    refine .inl ⟨_, (e.asOperationError c.operation.name).message, rfl, does_put ?_⟩
    rw [commanding?, hdatabases]
    rfl
  · rw [h]
    refine .inr ⟨x, rfl, does_put ?_⟩
    rw [commanding?, hdatabases]
    rfl

/-- What a call did to the table that it is about, told by its answer. Only a toggle touches panels, and
only the operation of a call that succeeded is noted as a success. -/
structure Traced (s : Service) (c : Call) (t : Topic) (cs : List (Change t.Row))
    (x : Outcome Answer × Service) : Prop where
  does : Does s t cs x.2
  loads : cs.countP Change.isLoad = c.loads x.1
  noted : ∀ name, .note name (.ok ()) ∈ cs →
    ∃ op a, c.operation? = some op ∧ op.name = name ∧ x.1 = .ok a
  steady : c.isToggle = false → ∀ d ∈ cs, d.isToggle = false

theorem traced_load {c : Call} (hc : ∀ r, c.loads r = 1) (x : Outcome Answer × Service)
    (h : x.2 = (s.refresh t.shelf).2) : ∃ cs, Traced s c t cs x := by
  have hrefresh := does_refresh s t
  rw [← h] at hrefresh
  rcases hrefresh with ⟨e, message, -, hdoes⟩ | ⟨T, d, -, hdoes⟩
  · exact ⟨_, hdoes, (hc x.1).symm, by simp, by simp [Change.isToggle]⟩
  · exact ⟨_, hdoes, (hc x.1).symm, by simp, by simp [Change.isToggle]⟩

theorem traced_delete (s : Service) (t : Topic) (uri : String) :
    ∃ cs, Traced s (.delete t uri) t cs (s.perform (.delete t uri)) := by
  have hrefresh := does_refresh s t
  rw [perform_delete, Likeness.delete_eq, Likeness.lookup_eq]
  generalize s.refresh t.shelf = x at hrefresh ⊢
  obtain ⟨r, s₁⟩ := x
  rcases hrefresh with ⟨e, message, rfl, hload⟩ | ⟨T, d, rfl, hload⟩
  · exact ⟨_, hload, rfl, by simp, by simp [Change.isToggle]⟩
  dsimp only [bind, Except.bind]
  cases T.find? fun a => t.shelf.eidUri a == uri with
  | none => exact ⟨_, hload, rfl, by simp, by simp [Change.isToggle]⟩
  | some a =>
    have hremoval := does_sendRemoval s₁ a
    dsimp only [Option.elim_some, andThen]
    generalize s₁.sendRemoval t.shelf (t.shelf.removal a) = y at hremoval ⊢
    obtain ⟨r, s₂⟩ := y
    rcases hremoval with ⟨e, message, rfl, hpost⟩ | ⟨rfl, hpost⟩
    · exact ⟨_, hload.trans hpost, rfl, by simp, by simp [Change.isToggle]⟩
    · rcases does_reload s₂ t t.removal with ⟨message, hreload⟩ | ⟨d, hreload⟩
      · exact ⟨_, (hload.trans hpost).trans hreload, rfl, by simp, by simp [Change.isToggle]⟩
      · exact ⟨_, (hload.trans hpost).trans hreload, rfl, by simp [Call.operation?, Except.map],
          by simp [Change.isToggle]⟩

theorem traced_execute (s : Service) (c : Command) :
    ∃ cs, Traced s (.execute c) c.topic cs (s.perform (.execute c)) := by
  have hcommanded := does_commanded s c
  rw [perform, answerWith_eq, Likeness.execute_eq]
  generalize Likeness.commanded s c = x at hcommanded ⊢
  obtain ⟨r, s₁⟩ := x
  rcases hcommanded with ⟨e, message, rfl, hpost⟩ | ⟨x, rfl, hpost⟩
  · exact ⟨_, hpost, rfl, by simp, by simp [Change.isToggle]⟩
  dsimp only [andThen, Likeness.settle]
  cases hwrite : c.operation.isWrite with
  | true =>
    have hloads : (Call.execute c).loads (.ok (.executed x)) = 1 := if_pos hwrite
    rcases does_reload s₁ c.topic c.operation with ⟨message, hreload⟩ | ⟨d, hreload⟩
    · exact ⟨_, hpost.trans hreload, hloads.symm, by simp, by simp [Change.isToggle]⟩
    · exact ⟨_, hpost.trans hreload, hloads.symm, by simp [Call.operation?, Except.map],
        by simp [Change.isToggle]⟩
  | false =>
    have hloads : (Call.execute c).loads (.ok (.executed x)) = 0 :=
      if_neg (Bool.eq_false_iff.1 hwrite)
    exact ⟨_, hpost.trans (does_note s₁ c.topic c.operation (.ok ())), hloads.symm,
      by simp [Call.operation?, Except.map], by simp [Change.isToggle]⟩

theorem exists_traced (s : Service) {c : Call} (h : c.topic? = some t) :
    ∃ cs, Traced s c t cs (s.perform c) := by
  cases c with
  | connect => cases h
  | refresh u =>
    cases h
    exact traced_load (fun _ => rfl) _ (congrArg Prod.snd (perform_refresh s t))
  | lookup u uri =>
    cases h
    refine traced_load (fun _ => rfl) _ ?_
    rw [perform_lookup, Likeness.lookup_eq]
  | delete u uri =>
    cases h
    exact traced_delete s t uri
  | toggle u index panel =>
    cases h
    rw [perform_toggle]
    refine ⟨[.toggle index panel], does_put ?_, rfl, by simp, fun h => by cases h⟩
    rw [Rpc.Network.after_nil, Rpc.Network.databases_self]
    rfl
  | execute c =>
    cases h
    rw [← Command.topic_eq]
    exact traced_execute s c

theorem get_perform_of_ne (s : Service) {c : Call} (h : c.topic? ≠ some t) :
    t.shelf.get (s.perform c).2 = t.shelf.get s := by
  cases hc : c.topic? with
  | none =>
    cases c with
    | connect => rw [perform, answerWith_eq]
    | refresh | lookup | delete | toggle | execute => cases hc
  | some u =>
    obtain ⟨cs, htraced⟩ := exists_traced s hc
    exact htraced.does.get_of_ne fun hu => h (hu ▸ hc)

end Service

end EidMap
