import EidMap.Proofs.Rpc.Exchange
import Mathlib.Data.List.Basic

/-!
# What the store was asked and what it answered

The network keeps what was received and answers it from its script, so each of two states of it tells
which requests were received between them, with their replies. The databases among these are what the
store gave out in the meantime.
-/

namespace EidMap.Rpc

/-- The database that the store gave out for a request: the empty one, where it answers 404 and does not
say why. -/
def fetched? (x : Request × Reply) : Option Stored.Database :=
  match x.1.method with
  | .get => (x.2.database x.1.url).toOption
  | .post => none

theorem fetched?_eq_some {q : Request} {r : Reply} {d : Stored.Database} :
    fetched? (q, r) = some d ↔ q.method = .get ∧ r.Gives d := by
  rw [← @Reply.database_eq_ok q.url, fetched?]
  cases q.method with
  | get =>
    dsimp only
    cases r.database q.url <;> simp [Except.toOption]
  | post => simp

namespace Network

def exchanges (n n' : Network) : List (Request × Reply) :=
  (n'.received.drop n.received.length).mapIdx fun i q => (q, n.reply i)

def databases (n n' : Network) : List Stored.Database := (n.exchanges n').filterMap fetched?

theorem exchanges_after (n : Network) (rs : List Request) :
    n.exchanges (n.after rs) = rs.mapIdx fun i q => (q, n.reply i) := by
  rw [exchanges, after, List.drop_left]

theorem exchanges_append (n : Network) (rs qs : List Request) :
    n.exchanges (n.after (rs ++ qs)) =
      n.exchanges (n.after rs) ++ (n.after rs).exchanges ((n.after rs).after qs) := by
  rw [exchanges_after, exchanges_after, exchanges_after, List.mapIdx_append]
  simp only [reply_after, Nat.add_comm rs.length]

theorem databases_append (n : Network) (rs qs : List Request) :
    n.databases (n.after (rs ++ qs)) =
      n.databases (n.after rs) ++ (n.after rs).databases ((n.after rs).after qs) := by
  rw [databases, exchanges_append, List.filterMap_append, databases, databases]

@[simp]
theorem databases_self (n : Network) : n.databases n = [] := by
  rw [databases, exchanges, List.drop_length]
  rfl

theorem databases_posted {n : Network} {q? : Option Request} (h : ∀ q ∈ q?, q.method = .post) :
    n.databases (n.after (n.takes q?)) = [] := by
  rw [databases, exchanges_after]
  rcases n.takes_cases q? with hnone | ⟨q, rfl, -, hsome⟩
  · rw [hnone]
    rfl
  · have hmethod : q.received.method = .post := h q rfl
    rw [hsome]
    simp [fetched?, hmethod]

end Network

end EidMap.Rpc
