import EidMap.Proofs.Paired
import EidMap.Proofs.Rpc.Exchange

/-!
# What a request comes to

The outcome of a call of the client depends on the network through two things only: whether anything
listens, and the next reply. Two networks that listen to the same places give outcomes that belong
together if the replies do.
-/

namespace EidMap

namespace Rpc.Client

variable {α : Type}

/-- What a request comes to: what is made of the next reply, if something listens. -/
def outcome (n : Network) (f : Url → Reply → Except Error α) : Except Error Request → Except Error α
  | .error e => .error e
  | .ok q =>
    if n.hears q then f q.url (n.reply 0)
    else .error (.transport (if Network.isWeb q.url then .connect else .unsupportedScheme) q.url)

theorem exchange_of_unheard {n : Network} {q : Request} (h : n.hears q = false) :
    exchange q n = (.error (.transport
      (if Network.isWeb q.url then .connect else .unsupportedScheme) q.url), n) := by
  rw [Network.hears, Bool.and_eq_false_iff] at h
  rw [exchange, Network.send]
  cases hw : Network.isWeb q.url with
  | false => rfl
  | true =>
    rw [hw] at h
    rw [h.resolve_left Bool.noConfusion]
    rfl

theorem mappingDatabase_fst (c : Client) (n : Network) :
    (c.mappingDatabase n).1 = outcome n Reply.database (c.databaseUrl.map c.getRequest) := by
  rw [mappingDatabase]
  cases c.databaseUrl with
  | error e => rfl
  | ok u =>
    rw [Except.map, outcome]
    cases h : n.hears (c.getRequest u) with
    | false => simp only [exchange_of_unheard h, Bool.false_eq_true, if_false]
    | true =>
      simp only [exchange_of_hears h, if_true, Reply.database]
      cases (n.reply 0).result (c.getRequest u).url with
      | ok text => rfl
      | error e => cases e <;> rfl

theorem post_fst (c : Client) (op : Operation) (body : Json) (read : Json.Doc → Json.Decoded α)
    (n : Network) :
    (c.post op body read n).1 = outcome n (fun url r => r.posted read url)
      ((c.operationUrl op).map (c.postRequest · body)) := by
  rw [post]
  cases c.operationUrl op with
  | error e => rfl
  | ok u =>
    rw [Except.map, outcome]
    cases h : n.hears (c.postRequest u body) with
    | false => simp only [exchange_of_unheard h, Bool.false_eq_true, if_false]
    | true =>
      simp only [exchange_of_hears h, if_true, Reply.posted]
      cases (n.reply 0).result (c.postRequest u body).url with
      | error e => rfl
      | ok text =>
        dsimp only
        split_ifs <;> rfl

theorem outcome_map {β : Type} (n : Network) (f : Url → Reply → Except Error α) (g : α → β)
    (q : Except Error Request) :
    (outcome n f q).map g = outcome n (fun url r => (f url r).map g) q := by
  cases q with
  | error e => rfl
  | ok q =>
    rw [outcome, outcome]
    split_ifs <;> rfl

theorem removeRaw_fst (c : Client) (op : Operation) (body : Json) (n : Network) :
    (c.removeRaw op body n).1 =
      outcome n Reply.acceptance ((c.operationUrl op).map (c.postRequest · body)) := by
  have haccepted : Reply.acceptance = fun url r => (r.posted Json.value url).map fun _ => () :=
    funext fun url => funext fun r => r.acceptance_eq url
  rw [removeRaw_eq, post_fst, outcome_map, haccepted]

theorem invokeUnit_fst (c : Client) (op : Operation) (body : Json) (n : Network) :
    (c.invokeUnit op body n).1 =
      outcome n (fun url r => (r.posted (readOutput Json.value .null) url).map fun _ => ())
        ((c.operationUrl op).map (c.postRequest · (input body))) := by
  rw [invokeUnit_eq, post_fst, outcome_map]

theorem lookup_fst (c : Client) (op : Operation) (eid : Json) (kind : String)
    (found : Json.Field Json.Doc (Option α)) (n : Network) :
    (c.lookup op eid kind found n).1 =
      outcome n (fun url r => (r.posted (readFound kind found) url).map (·.getD none))
        ((c.operationUrl op).map (c.postRequest · (eidInput eid))) := by
  rw [lookup_eq, post_fst, outcome_map]

theorem outcome_paired {n n' : Network} (listens : n'.listens = n.listens)
    {q q' : Except Error Request} (url : q'.map Request.url = q.map Request.url)
    {f : Url → Reply → Except Error α} {E : Error → Error → Prop} {P : α → α → Prop}
    (refl : ∀ e, E e e)
    (agree : n.takes q.toOption ≠ [] → ∀ url, Paired E P (f url (n.reply 0)) (f url (n'.reply 0))) :
    Paired E P (outcome n f q) (outcome n' f q') := by
  cases q with
  | error e =>
    cases q' with
    | error e' =>
      cases url
      exact .error (refl _)
    | ok r' => cases url
  | ok r =>
    cases q' with
    | error e' => cases url
    | ok r' =>
      have hurl : r'.url = r.url := Except.ok.inj url
      have hhears : n'.hears r' = n.hears r := by
        rw [Network.hears, Network.hears, listens, hurl]
      rw [outcome, outcome, hhears, hurl]
      cases hheard : n.hears r with
      | true =>
        refine agree ?_ r.url
        rw [Except.toOption, Network.takes, if_pos hheard]
        exact List.cons_ne_nil _ _
      | false => exact .error (refl _)

end Rpc.Client

end EidMap
