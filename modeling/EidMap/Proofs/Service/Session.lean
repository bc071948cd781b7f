import EidMap.Proofs.Service.Lockstep
import EidMap.Service.Call

/-!
# Two sessions side by side

A session is a list of calls. Two services go in step through a whole session if the replies that
the first one uses up belong together.
-/

namespace EidMap

def Topic.tableAnswer : (t : Topic) → Table t.Row → Service.Answer
  | .mappings => .mappings
  | .keys => .keys

def Topic.rowAnswer : (t : Topic) → t.Row → Service.Answer
  | .mappings => .mapping
  | .keys => .key

namespace Service

def Call.uses : Call → List Use
  | .connect | .toggle .. => []
  | .refresh _ | .lookup .. => [.database]
  | .delete .. => [.database, .removal, .database]
  | .execute c => c.use :: Likeness.settleUses c

theorem answerWith_eq {α : Type} (f : α → Answer) (x : Outcome α × Service) :
    answerWith f x = (x.1.map f, x.2) := by
  rcases x with ⟨_ | _, s⟩ <;> rfl

theorem perform_refresh (s : Service) (t : Topic) :
    s.perform (.refresh t) = ((s.refresh t.shelf).1.map t.tableAnswer, (s.refresh t.shelf).2) := by
  cases t <;> exact answerWith_eq _ _

theorem perform_lookup (s : Service) (t : Topic) (uri : String) :
    s.perform (.lookup t uri) =
      ((s.lookup t.shelf uri).1.map t.rowAnswer, (s.lookup t.shelf uri).2) := by
  cases t <;> exact answerWith_eq _ _

theorem perform_delete (s : Service) (t : Topic) (uri : String) :
    s.perform (.delete t uri) =
      ((s.delete t.shelf uri).1.map fun _ => .done, (s.delete t.shelf uri).2) := by
  cases t <;> exact answerWith_eq _ _

theorem perform_toggle (s : Service) (t : Topic) (index : Nat) (p : Panel) :
    s.perform (.toggle t index p) = (.ok (.toggled ((t.shelf.get s).toggle index p).2),
      s.put t (s.network.after []) ((t.shelf.get s).toggle index p).1) := by
  rw [Rpc.Network.after_nil]
  cases t <;> rfl

/-- What is read out of the answers that a session uses up, one after the other. -/
def used (s : Service) : List Call → List Use
  | [] => []
  | c :: cs => c.uses.take (s.sentTo (s.perform c).2) ++ (s.perform c).2.used cs

def answers (s : Service) : List Call → List (Outcome Answer)
  | [] => []
  | c :: cs => (s.perform c).1 :: (s.perform c).2.answers cs

end Service

namespace Likeness

variable {L : Likeness} (hL : L.Lawful) {s s' : Service} (hs : L.Services s s') {t : Topic}

variable (L) in
inductive Answers : Service.Answer → Service.Answer → Prop
  | done : Answers .done .done
  | mappings {T T' : Table Mapping} (h : L.Tables .mappings T T') :
    Answers (.mappings T) (.mappings T')
  | keys {T T' : Table KeyEntry} (h : L.Tables .keys T T') : Answers (.keys T) (.keys T')
  | mapping {m m' : Mapping} (h : L.row .mappings m m') : Answers (.mapping m) (.mapping m')
  | key {k k' : KeyEntry} (h : L.row .keys k k') : Answers (.key k) (.key k')
  | toggled (b : Bool) : Answers (.toggled b) (.toggled b)
  | executed {r r' : Service.Result} (h : L.Results r r') : Answers (.executed r) (.executed r')

structure Steps {ε α β : Type} (E : ε → ε → Prop) (P : α → β → Prop) (s s' : Service)
    (x : Except ε α × Service) (x' : Except ε β × Service) : Prop where
  outcome : Paired E P x.1 x'.1
  services : L.Services x.2 x'.2
  sent : ∃ qs qs', List.Forall₂ L.Requests qs qs' ∧ x.2.network = s.network.after qs ∧
    x'.2.network = s'.network.after qs'

theorem Answers.table : (t : Topic) → {T T' : Table t.Row} → L.Tables t T T' →
    L.Answers (t.tableAnswer T) (t.tableAnswer T')
  | .mappings, _, _, h => .mappings h
  | .keys, _, _, h => .keys h

theorem Answers.row : (t : Topic) → {a a' : t.Row} → L.row t a a' →
    L.Answers (t.rowAnswer a) (t.rowAnswer a')
  | .mappings, _, _, h => .mapping h
  | .keys, _, _, h => .key h

include hs in
theorem Twins.steps {α β : Type} {P : α → β → Prop} {x : Service.Outcome α × Service}
    {x' : Service.Outcome β × Service} (h : L.Twins t P s s' x x') {f : α → Service.Answer}
    {g : β → Service.Answer} (like : ∀ a b, P a b → L.Answers (f a) (g b)) :
    L.Steps L.error L.Answers s s' (x.1.map f, x.2) (x'.1.map g, x'.2) := by
  have hservices := h.services hs
  cases h with
  | mk sent outcome table =>
    exact ⟨outcome.map like, hservices, _, _, sent, Service.network_put, Service.network_put⟩

theorem sends_perform (s : Service) (c : Service.Call) :
    Service.Sends c.uses s (s.perform c).2 := by
  have hnone : ∀ {s₁ : Service}, s₁.network = s.network → Service.Sends [] s s₁ := fun h =>
    ⟨[], h.trans s.network.after_nil.symm, Nat.le_refl 0⟩
  cases c with
  | connect =>
    rw [Service.perform, Service.answerWith_eq]
    exact hnone rfl
  | refresh t =>
    rw [Service.perform_refresh]
    exact sends_refresh s t
  | lookup t uri =>
    rw [Service.perform_lookup]
    exact sends_lookup s t uri
  | delete t uri =>
    rw [Service.perform_delete]
    exact sends_delete s t uri
  | toggle t index p =>
    rw [Service.perform_toggle]
    exact ⟨[], Service.network_put, Nat.le_refl 0⟩
  | execute c =>
    rw [Service.perform, Service.answerWith_eq]
    exact sends_execute s c

include hL hs in
theorem perform_steps (c : Service.Call)
    (agree : L.Serves (c.uses.take (s.sentTo (s.perform c).2)) s.network s'.network) :
    L.Steps L.error L.Answers s s' (s.perform c) (s'.perform c) := by
  cases c with
  | connect =>
    have hconnect : s'.connect = s.connect := by rw [Service.connect, Service.connect, hs.client]
    rw [Service.perform, Service.perform, Service.answerWith_eq, Service.answerWith_eq, hconnect]
    have hurl := Paired.refl (P := fun _ _ => True) hL.error_refl (fun _ => trivial) s.connect
    exact ⟨hurl.map fun _ _ _ => .done, hs, [], [], .nil, s.network.after_nil.symm,
      s'.network.after_nil.symm⟩
  | refresh t =>
    rw [Service.perform_refresh] at agree ⊢
    rw [Service.perform_refresh]
    exact (refresh_inStep hL hs agree).steps hs fun _ _ => .table t
  | lookup t uri =>
    rw [Service.perform_lookup] at agree ⊢
    rw [Service.perform_lookup]
    exact (lookup_inStep hL hs uri agree).steps hs fun _ _ => .row t
  | delete t uri =>
    rw [Service.perform_delete] at agree ⊢
    rw [Service.perform_delete]
    exact (delete_inStep hL hs uri agree).steps hs fun _ _ _ => .done
  | toggle t index p =>
    obtain ⟨htable, happlied⟩ := (hs.tables t).toggle index p
    rw [Service.perform_toggle, Service.perform_toggle, happlied]
    exact ⟨.ok (.toggled _), hs.put htable, [], [], .nil, Service.network_put, Service.network_put⟩
  | execute c =>
    rw [Service.perform, Service.answerWith_eq] at agree
    rw [Service.perform, Service.perform, Service.answerWith_eq, Service.answerWith_eq]
    exact (execute_inStep hL hs c agree).steps hs fun _ _ => .executed

include hL hs in
/-- A whole session of two services, with replies that belong together. -/
theorem run_steps (cs : List Service.Call) (agree : L.Serves (s.used cs) s.network s'.network) :
    List.Forall₂ (Paired L.error L.Answers) (s.answers cs) (s'.answers cs) ∧
      L.Services (s.run cs) (s'.run cs) ∧
      ∃ qs qs', List.Forall₂ L.Requests qs qs' ∧ (s.run cs).network = s.network.after qs ∧
        (s'.run cs).network = s'.network.after qs' := by
  induction cs generalizing s s' with
  | nil =>
    exact ⟨.nil, hs, [], [], .nil, s.network.after_nil.symm, s'.network.after_nil.symm⟩
  | cons c cs ih =>
    rw [Service.used] at agree
    obtain ⟨houtcome, hservices, qs, qs', hsent, hnetwork, hnetwork'⟩ :=
      perform_steps hL hs c agree.of_append
    obtain ⟨sent, hsends, hlength⟩ := sends_perform s c
    have hqs : qs.length = (c.uses.take (s.sentTo (s.perform c).2)).length := by
      rw [List.length_take, Service.sentTo_eq hnetwork, ← Service.sentTo_eq hnetwork,
        Service.sentTo_eq hsends, Nat.min_eq_left hlength]
    have hagree := agree.after hqs (hsent.length_eq.symm.trans hqs)
    rw [← hnetwork, ← hnetwork'] at hagree
    obtain ⟨hanswers, hrun, rs, rs', hrest, hlast, hlast'⟩ := ih hservices hagree
    refine ⟨.cons houtcome hanswers, hrun, qs ++ rs, qs' ++ rs', List.rel_append hsent hrest,
      ?_, ?_⟩
    · exact hlast.trans (by rw [hnetwork, Rpc.Network.after_after])
    · exact hlast'.trans (by rw [hnetwork', Rpc.Network.after_after])

end Likeness

end EidMap
