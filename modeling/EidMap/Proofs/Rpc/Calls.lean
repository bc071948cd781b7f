import EidMap.Proofs.Rpc.Exchange

/-!
# The calls of a client

A client reads the database or posts to an operation, with one request for each call. Whatever the
call, a reply that has no body to read fails it with what is wrong with the reply; only a database
that is missing counts as an empty one.
-/

namespace EidMap.Rpc.Client

inductive Call
  | database
  | addKey (eid : Json) (key : Stored.Secret)
  | updateKey (eid : Json) (key : Stored.Secret)
  | removeKey (eid : Json)
  | getKey (eid : Json)
  | addMapping (r : Stored.Record)
  | updateMapping (r : Stored.Record)
  | removeMapping (eid : Json)
  | getMapping (eid : Json)
  | removeRaw (op : Operation) (body : Json)

namespace Call

def ended {α : Type} (x : Except Error α × Network) : Except Error Unit × Network :=
  (x.1.map fun _ => (), x.2)

def perform (c : Client) (n : Network) : Call → Except Error Unit × Network
  | database => ended (c.mappingDatabase n)
  | addKey eid key => c.addKey eid key n
  | updateKey eid key => c.updateKey eid key n
  | removeKey eid => c.removeKey eid n
  | getKey eid => ended (c.getKey eid n)
  | addMapping r => c.addMapping r n
  | updateMapping r => c.updateMapping r n
  | removeMapping eid => c.removeMapping eid n
  | getMapping eid => ended (c.getMapping eid n)
  | removeRaw op body => c.removeRaw op body n

def post? : Call → Option (Operation × Json)
  | database => none
  | addKey eid key => some (.addKey, input (keyInput eid key))
  | updateKey eid key => some (.updateKey, input (keyInput eid key))
  | removeKey eid => some (.removeKey, eidInput eid)
  | getKey eid => some (.getKey, eidInput eid)
  | addMapping r => some (.addMapping, input (recordInput r))
  | updateMapping r => some (.updateMapping, input (recordInput r))
  | removeMapping eid => some (.removeMapping, eidInput eid)
  | getMapping eid => some (.getMapping, eidInput eid)
  | removeRaw op body => some (op, body)

def request? (c : Client) (k : Call) : Option Request :=
  match k.post? with
  | none => c.reading?
  | some (op, body) => c.posting? op body

def told : Call → Error → Except Error Unit
  | database, .notFound _ => .ok ()
  | _, e => .error e

theorem told_posted {k : Call} (h : k.post? ≠ none) (e : Error) : k.told e = .error e := by
  cases k with
  | database => exact absurd rfl h
  | _ => rfl

def Faithful (k : Call) (f : Url → Reply → Except Error Unit) : Prop :=
  ∀ url r e, r.result url = .error e → f url r = k.told e

theorem faithful_database : Faithful .database fun url r => (r.database url).map fun _ => () := by
  intro url r e h
  dsimp only
  rw [Reply.database, h]
  cases e <;> rfl

theorem faithful_posted {α : Type} {k : Call} (h : k.post? ≠ none)
    (read : Json.Doc → Json.Decoded α) (g : Except Error (Option α) → Except Error Unit)
    (fails : ∀ e, g (.error e) = .error e) : Faithful k fun url r => g (r.posted read url) := by
  intro url r e hr
  dsimp only
  rw [Reply.posted, hr, told_posted h]
  exact fails e

theorem exchanged_perform (c : Client) (n : Network) (k : Call) :
    ∃ f, Exchanged n (k.request? c) f (k.perform c n) ∧ Faithful k f := by
  have hunit : ∀ {k : Call} op body, k.post? = some (op, input body) →
      k.perform c n = c.invokeUnit op body n →
      ∃ f, Exchanged n (k.request? c) f (k.perform c n) ∧ Faithful k f := by
    intro k op body hpost hperform
    have hne : k.post? ≠ none := by rw [hpost]; exact Option.some_ne_none _
    refine ⟨_, ?_, faithful_posted hne (readOutput Json.value .null) (·.map fun _ => ())
      fun _ => rfl⟩
    rw [request?, hpost, hperform]
    exact c.exchanged_invokeUnit op body n
  have hlookup : ∀ {α : Type} {k : Call} op eid kind (found : Json.Field Json.Doc (Option α)),
      k.post? = some (op, eidInput eid) → k.perform c n = ended (c.lookup op eid kind found n) →
      ∃ f, Exchanged n (k.request? c) f (k.perform c n) ∧ Faithful k f := by
    intro α k op eid kind found hpost hperform
    have hne : k.post? ≠ none := by rw [hpost]; exact Option.some_ne_none _
    refine ⟨_, ?_, faithful_posted hne (readFound kind found)
      (fun x => (x.map (·.getD none)).map fun _ => ()) fun _ => rfl⟩
    rw [request?, hpost, hperform]
    exact (c.exchanged_lookup op eid kind found n).map fun _ => ()
  cases k with
  | database => exact ⟨_, (c.exchanged_mappingDatabase n).map fun _ => (), faithful_database⟩
  | addKey eid key => exact hunit .addKey (keyInput eid key) rfl rfl
  | updateKey eid key => exact hunit .updateKey (keyInput eid key) rfl rfl
  | removeKey eid => exact hunit .removeKey _ rfl rfl
  | getKey eid => exact hlookup .getKey eid _ _ rfl rfl
  | addMapping r => exact hunit .addMapping (recordInput r) rfl rfl
  | updateMapping r => exact hunit .updateMapping (recordInput r) rfl rfl
  | removeMapping eid => exact hunit .removeMapping _ rfl rfl
  | getMapping eid => exact hlookup .getMapping eid _ _ rfl rfl
  | removeRaw op body =>
    have haccepted : Reply.acceptance = fun url r => (r.posted Json.value url).map fun _ => () :=
      funext fun url => funext fun r => r.acceptance_eq url
    refine ⟨_, c.exchanged_removeRaw op body n, ?_⟩
    rw [haccepted]
    exact faithful_posted (k := .removeRaw op body) (Option.some_ne_none _) Json.value
      (·.map fun _ => ()) fun _ => rfl

theorem perform_of_takes {c : Client} {n : Network} {k : Call} {r : Request}
    (heard : n.takes (k.request? c) = [r]) :
    ∃ url, url.pathText = r.url.pathText ∧ ∀ e, (n.reply 0).result url = .error e →
      (k.perform c n).1 = k.told e := by
  obtain ⟨f, hexchanged, hfaithful⟩ := k.exchanged_perform c n
  generalize k.perform c n = x at hexchanged ⊢
  cases hexchanged with
  | unheard e h => cases h.symm.trans heard
  | heard q h =>
    cases h.symm.trans heard
    exact ⟨q.url, rfl, hfaithful q.url (n.reply 0)⟩

end Call

end EidMap.Rpc.Client
