import EidMap.Rpc.Client
import Mathlib.Tactic.SplitIfs

/-!
# What one call sends and what it makes of the answer

A call of the client sends at most one request. It is received where something listens, takes the
next reply of the store, and leaves the network otherwise as it was. Which replies give the
database, and which accept a removal, is said of the reply alone.
-/

namespace EidMap.Rpc

def Request.received (r : Request) : Request := { r with url := r.url.withoutFragment }

/-- A body that says nothing, or something that is JSON. -/
def Legible (body : String) : Prop :=
  (Text.trim body.toList).isEmpty = true ∨ ∃ v, Json.decodeText Json.value body = .ok v

theorem decodeBody_eq_ok {α : Type} {read : Json.Doc → Json.Decoded α} {body : String} {a : α} :
    decodeBody read body = .ok a ↔ Json.decodeText read body = .ok a := by
  rw [decodeBody]
  cases Json.decodeText read body <;> simp

namespace Reply

/-- A reply that gives a database. A store that has none answers 404 and does not say why. -/
inductive Gives (d : Stored.Database) : Reply → Prop
  | document {status : Nat} {body : String} (success : isSuccess status = true)
    (read : Json.decodeText Stored.Database.readDocument body = .ok d) :
    Gives d (.answer status body)
  | none {body : String} (silent : errorMessages body = []) (empty : d = .empty) :
    Gives d (.answer 404 body)

inductive Accepts : Reply → Prop
  | answer {status : Nat} {body : String} (success : isSuccess status = true)
    (legible : Legible body) : Accepts (.answer status body)

/-- A reply to a post that says nothing, or something that can be read. -/
inductive Answered {α : Type} (read : Json.Doc → Json.Decoded α) : Option α → Reply → Prop
  | silent {status : Nat} {body : String} (success : isSuccess status = true)
    (blank : (Text.trim body.toList).isEmpty = true) : Answered read none (.answer status body)
  | spoken {status : Nat} {body : String} {a : α} (success : isSuccess status = true)
    (text : (Text.trim body.toList).isEmpty = false) (said : Json.decodeText read body = .ok a) :
    Answered read (some a) (.answer status body)

def result (url : Url) : Reply → Except Error String
  | .answer status body => checkStatus url status body
  | .close => .error (.transport .interrupted url)
  | .truncate => .error (.transport .bodyCutShort url)
  | .hang => .error (.transport .timeout url)

theorem result_of_isSuccess {url : Url} {status : Nat} {body : String}
    (h : isSuccess status = true) : (answer status body).result url = .ok body := by
  rw [result, checkStatus, if_pos h]

theorem result_of_silent {url : Url} {body : String} (h : errorMessages body = []) :
    (answer 404 body).result url = .error (.notFound url.pathText) := by
  simp [result, checkStatus, isSuccess, h]

theorem result_eq_ok {url : Url} {r : Reply} {text : String} (h : r.result url = .ok text) :
    ∃ status, r = .answer status text ∧ isSuccess status = true := by
  cases r with
  | answer status body =>
    rw [result, checkStatus] at h
    split at h
    · rename_i hs
      cases h
      exact ⟨status, rfl, hs⟩
    · split at h
      · cases h
      · split at h
        · split at h <;> cases h
        · cases h
  | _ => cases h

theorem result_eq_notFound {url : Url} {r : Reply} {path : String}
    (h : r.result url = .error (.notFound path)) :
    ∃ body, r = .answer 404 body ∧ errorMessages body = [] := by
  cases r with
  | answer status body =>
    rw [result, checkStatus] at h
    split at h
    · cases h
    · split at h
      · cases h
      · split at h
        · rename_i hsilent
          split at h
          · rename_i h404
            subst h404
            exact ⟨body, rfl, hsilent⟩
          · cases h
        · cases h
  | _ => cases h

theorem result_eq_error {url : Url} {status : Nat} {body : String} {e : Error}
    (h : (answer status body).result url = .error e) :
    status = 401 ∧ e = .unauthorized ∨
      status = 404 ∧ errorMessages body = [] ∧ e = .notFound url.pathText ∨
      status ≠ 401 ∧ ¬(status = 404 ∧ errorMessages body = []) ∧
        ∃ messages, e = .refused status messages := by
  rw [result, checkStatus] at h
  split at h
  · cases h
  · split at h
    · rename_i hauth
      cases h
      exact .inl ⟨hauth, rfl⟩
    · rename_i hauth
      split at h
      · rename_i hsilent
        split at h
        · rename_i hmissing
          cases h
          exact .inr (.inl ⟨hmissing, hsilent, rfl⟩)
        · rename_i hmissing
          cases h
          exact .inr (.inr ⟨hauth, fun hnone => hmissing hnone.1, _, rfl⟩)
      · rename_i hspoken
        cases h
        exact .inr (.inr ⟨hauth, fun hnone => hspoken hnone.2, _, rfl⟩)

def database (url : Url) (r : Reply) : Except Error Stored.Database :=
  match r.result url with
  | .error (.notFound _) => .ok .empty
  | .error e => .error e
  | .ok text => decodeBody Stored.Database.readDocument text

theorem database_missing (url : Url) (body : String) :
    (answer 404 body).database url = match errorMessages body with
      | [] => .ok .empty
      | messages => .error (.refused 404 messages) := by
  rw [database, result, checkStatus]
  cases errorMessages body <;> rfl

def posted {α : Type} (read : Json.Doc → Json.Decoded α) (url : Url) (r : Reply) :
    Except Error (Option α) :=
  match r.result url with
  | .error e => .error e
  | .ok text =>
    if (Text.trim text.toList).isEmpty then .ok none else (decodeBody read text).map some

def acceptance (url : Url) (r : Reply) : Except Error Unit :=
  match r.result url with
  | .error e => .error e
  | .ok text =>
    if (Text.trim text.toList).isEmpty then .ok ()
    else (decodeBody Json.value text).map fun _ => ()

theorem database_eq_ok {url : Url} {r : Reply} {d : Stored.Database} :
    r.database url = .ok d ↔ r.Gives d := by
  constructor
  · intro h
    rw [database] at h
    split at h
    · rename_i path hr
      cases h
      obtain ⟨body, rfl, hsilent⟩ := result_eq_notFound hr
      exact .none hsilent rfl
    · cases h
    · rename_i text hr
      obtain ⟨status, rfl, hs⟩ := result_eq_ok hr
      exact .document hs (decodeBody_eq_ok.1 h)
  · intro h
    cases h with
    | document success read =>
      rw [database, result_of_isSuccess success]
      exact decodeBody_eq_ok.2 read
    | none silent empty => rw [database, result_of_silent silent, empty]

theorem posted_eq_ok {α : Type} {read : Json.Doc → Json.Decoded α} {url : Url} {r : Reply}
    {o : Option α} : r.posted read url = .ok o ↔ r.Answered read o := by
  constructor
  · intro h
    rw [posted] at h
    split at h
    · cases h
    · rename_i text hr
      obtain ⟨status, rfl, hs⟩ := result_eq_ok hr
      split_ifs at h with hblank
      · cases h
        exact .silent hs hblank
      · obtain ⟨a, ha, rfl⟩ := Json.map_eq_ok.1 h
        exact .spoken hs (Bool.eq_false_iff.2 hblank) (decodeBody_eq_ok.1 ha)
  · intro h
    cases h with
    | silent success blank => rw [posted, result_of_isSuccess success]; exact if_pos blank
    | spoken success text said =>
      rw [posted, result_of_isSuccess success]
      simp only [text, decodeBody_eq_ok.2 said, Bool.false_eq_true, if_false, Except.map]

theorem acceptance_eq (url : Url) (r : Reply) :
    r.acceptance url = (r.posted Json.value url).map fun _ => () := by
  rw [acceptance, posted]
  cases r.result url with
  | error e => rfl
  | ok text =>
    dsimp only
    split_ifs
    · rfl
    · cases decodeBody Json.value text <;> rfl

theorem acceptance_eq_ok {url : Url} {r : Reply} : r.acceptance url = .ok () ↔ r.Accepts := by
  constructor
  · intro h
    rw [acceptance] at h
    split at h
    · cases h
    · rename_i text hr
      obtain ⟨status, rfl, hs⟩ := result_eq_ok hr
      refine .answer hs ?_
      split_ifs at h with hblank
      · exact .inl hblank
      · obtain ⟨v, hv, -⟩ := Json.map_eq_ok.1 h
        exact .inr ⟨v, decodeBody_eq_ok.1 hv⟩
  · rintro ⟨success, legible⟩
    rw [acceptance, result_of_isSuccess success]
    rcases legible with hblank | ⟨v, hv⟩
    · simp only [hblank, if_true]
    · simp only [decodeBody_eq_ok.2 hv, Except.map, ite_self]

end Reply

namespace Network

def hears (n : Network) (r : Request) : Bool := isWeb r.url && n.listens r.url

/-- What is received of a request, if it could be built. -/
def takes (n : Network) : Option Request → List Request
  | some r => if n.hears r then [r.received] else []
  | none => []

def reply (n : Network) (i : Nat) : Reply := n.script[i]?.getD .exhausted

def after (n : Network) (rs : List Request) : Network :=
  { n with script := n.script.drop rs.length, received := n.received ++ rs }

@[simp]
theorem after_nil (n : Network) : n.after [] = n := by simp [after]

@[simp]
theorem after_after (n : Network) (rs qs : List Request) :
    (n.after rs).after qs = n.after (rs ++ qs) := by
  simp [after, List.drop_drop, List.append_assoc]

@[simp]
theorem reply_after (n : Network) (rs : List Request) (i : Nat) :
    (n.after rs).reply i = n.reply (rs.length + i) := by
  simp [after, reply, List.getElem?_drop]

@[simp]
theorem takes_after (n : Network) (rs : List Request) (r : Option Request) :
    (n.after rs).takes r = n.takes r := by
  cases r <;> rfl

theorem takes_cases (n : Network) (r : Option Request) :
    n.takes r = [] ∨ ∃ q, r = some q ∧ n.hears q = true ∧ n.takes r = [q.received] := by
  cases r with
  | none => exact .inl rfl
  | some q =>
    cases hq : n.hears q with
    | false => exact .inl (by rw [takes, hq]; rfl)
    | true => exact .inr ⟨q, rfl, hq, by rw [takes, hq]; rfl⟩

theorem exists_of_takes_ne_nil {n : Network} {r : Option Request} (h : n.takes r ≠ []) :
    ∃ q, r = some q ∧ n.takes r = [q.received] := by
  rcases n.takes_cases r with hr | ⟨q, hq, -, hr⟩
  · exact absurd hr h
  · exact ⟨q, hq, hr⟩

theorem length_takes_le (n : Network) (r : Option Request) : (n.takes r).length ≤ 1 := by
  rcases n.takes_cases r with h | ⟨q, -, -, h⟩ <;> simp [h]

theorem mem_takes {n : Network} {r : Option Request} {p : Request} (h : p ∈ n.takes r) :
    ∃ q, r = some q ∧ p = q.received := by
  rcases n.takes_cases r with hr | ⟨q, hq, -, hr⟩
  · rw [hr] at h
    cases h
  · rw [hr] at h
    exact ⟨q, hq, List.mem_singleton.1 h⟩

theorem next_eq (n : Network) (r : Request) : n.next r = (n.reply 0, n.after [r]) := by
  unfold next
  split <;> rename_i h <;> simp [reply, after, h]

end Network

namespace Client

theorem exchange_of_hears {n : Network} {r : Request} (h : n.hears r = true) :
    exchange r n = ((n.reply 0).result r.url, n.after [r.received]) := by
  rw [Network.hears, Bool.and_eq_true] at h
  have hnext : n.next { r with url := r.url.withoutFragment } =
      (n.reply 0, n.after [r.received]) := n.next_eq r.received
  rw [exchange, Network.send, h.1, h.2, hnext]
  cases n.reply 0 <;> rfl

theorem exchange_of_not_hears {n : Network} {r : Request} (h : n.hears r = false) :
    ∃ fault, exchange r n = (.error (.transport fault r.url), n) := by
  rw [Network.hears, Bool.and_eq_false_iff] at h
  rw [exchange, Network.send]
  cases hw : Network.isWeb r.url with
  | false => exact ⟨.unsupportedScheme, rfl⟩
  | true =>
    rw [hw] at h
    rw [h.resolve_left nofun]
    exact ⟨.connect, rfl⟩

theorem exchange_network (r : Request) (n : Network) :
    (exchange r n).2 = n.after (n.takes (some r)) := by
  cases h : n.hears r with
  | true => rw [exchange_of_hears h, Network.takes, h, if_pos rfl]
  | false =>
    obtain ⟨fault, hexchange⟩ := exchange_of_not_hears h
    rw [hexchange, Network.takes, h, if_neg nofun, Network.after_nil]

def reading? (c : Client) : Option Request := c.databaseUrl.toOption.map c.getRequest

def posting? (c : Client) (op : Operation) (body : Json) : Option Request :=
  (c.operationUrl op).toOption.map (c.postRequest · body)

/-- A call that is not heard fails; another one makes of the next reply what it can. -/
inductive Exchanged {α : Type} (n : Network) (r : Option Request)
    (f : Url → Reply → Except Error α) :
    Except Error α × Network → Prop
  | unheard (e : Error) (h : n.takes r = []) : Exchanged n r f (.error e, n)
  | heard (q : Request) (h : n.takes r = [q.received]) :
    Exchanged n r f (f q.url (n.reply 0), n.after [q.received])

theorem Exchanged.network_eq {α : Type} {n : Network} {r : Option Request}
    {f : Url → Reply → Except Error α} {x : Except Error α × Network} (h : Exchanged n r f x) :
    x.2 = n.after (n.takes r) := by
  cases h with
  | unheard e h => rw [h, Network.after_nil]
  | heard q h => rw [h]

theorem exchanged_mappingDatabase (c : Client) (n : Network) :
    Exchanged n c.reading? Reply.database (c.mappingDatabase n) := by
  rw [mappingDatabase, reading?]
  cases c.databaseUrl with
  | error e => exact .unheard _ rfl
  | ok u =>
    cases h : n.hears (c.getRequest u) with
    | false =>
      obtain ⟨fault, he⟩ := exchange_of_not_hears h
      simp only [he]
      exact .unheard _ (by simp [Except.toOption, Network.takes, h])
    | true =>
      have hr := Exchanged.heard (f := Reply.database) (r := some (c.getRequest u)) (n := n) _
        (by rw [Network.takes, h]; rfl)
      simp only [exchange_of_hears h]
      rw [Reply.database] at hr
      revert hr
      cases (n.reply 0).result (c.getRequest u).url with
      | ok text => exact id
      | error e => cases e <;> exact id

theorem exchanged_post {α : Type} (c : Client) (op : Operation) (body : Json)
    (read : Json.Doc → Json.Decoded α) (n : Network) :
    Exchanged n (c.posting? op body) (fun url r => r.posted read url) (c.post op body read n) := by
  rw [post, posting?]
  cases c.operationUrl op with
  | error e => exact .unheard _ rfl
  | ok u =>
    cases h : n.hears (c.postRequest u body) with
    | false =>
      obtain ⟨fault, he⟩ := exchange_of_not_hears h
      simp only [he]
      exact .unheard _ (by simp [Except.toOption, Network.takes, h])
    | true =>
      have hr := Exchanged.heard (f := fun url r => r.posted read url)
        (r := some (c.postRequest u body)) (n := n) _ (by rw [Network.takes, h]; rfl)
      simp only [exchange_of_hears h]
      rw [Reply.posted] at hr
      revert hr
      cases (n.reply 0).result (c.postRequest u body).url with
      | ok text =>
        dsimp only
        split_ifs
        · exact id
        · exact id
      | error e => exact id

theorem Exchanged.map {α β : Type} {n : Network} {r : Option Request}
    {f : Url → Reply → Except Error α} {o : Except Error α × Network} (h : Exchanged n r f o)
    (g : α → β) : Exchanged n r (fun url reply => (f url reply).map g) (o.1.map g, o.2) := by
  cases h with
  | unheard e h => exact .unheard e h
  | heard q h => exact .heard q h

theorem removeRaw_eq (c : Client) (op : Operation) (body : Json) (n : Network) :
    c.removeRaw op body n =
      ((c.post op body Json.value n).1.map fun _ => (), (c.post op body Json.value n).2) := by
  rw [removeRaw]
  rcases c.post op body Json.value n with ⟨_ | _, m⟩ <;> rfl

theorem invokeUnit_eq (c : Client) (op : Operation) (body : Json) (n : Network) :
    c.invokeUnit op body n =
      ((c.post op (input body) (readOutput Json.value .null) n).1.map fun _ => (),
        (c.post op (input body) (readOutput Json.value .null) n).2) := by
  rw [invokeUnit]
  rcases c.post op (input body) (readOutput Json.value .null) n with ⟨_ | _, m⟩ <;> rfl

def readFound {α : Type} (kind : String) (found : Json.Field Json.Doc (Option α)) :
    Json.Doc → Json.Decoded (Option α) :=
  readOutput (Json.record kind [found.guard] fun p => p.get found) none

theorem lookup_eq {α : Type} (c : Client) (op : Operation) (eid : Json) (kind : String)
    (found : Json.Field Json.Doc (Option α)) (n : Network) :
    c.lookup op eid kind found n =
      ((c.post op (eidInput eid) (readFound kind found) n).1.map (·.getD none),
        (c.post op (eidInput eid) (readFound kind found) n).2) := by
  rw [lookup]
  generalize hread : readFound kind found = read
  rw [readFound] at hread
  rw [hread]
  rcases c.post op (eidInput eid) read n with ⟨_ | _, m⟩ <;> rfl

theorem exchanged_removeRaw (c : Client) (op : Operation) (body : Json) (n : Network) :
    Exchanged n (c.posting? op body) Reply.acceptance (c.removeRaw op body n) := by
  have hacceptance : Reply.acceptance =
      fun url r => (r.posted Json.value url).map fun _ => () := by
    funext url r
    exact r.acceptance_eq url
  rw [hacceptance, removeRaw_eq]
  exact (c.exchanged_post op body Json.value n).map fun _ => ()

theorem exchanged_invokeUnit (c : Client) (op : Operation) (body : Json) (n : Network) :
    Exchanged n (c.posting? op (input body))
      (fun url r => (r.posted (readOutput Json.value .null) url).map fun _ => ())
      (c.invokeUnit op body n) := by
  rw [invokeUnit_eq]
  exact (c.exchanged_post op (input body) (readOutput Json.value .null) n).map fun _ => ()

theorem exchanged_lookup {α : Type} (c : Client) (op : Operation) (eid : Json) (kind : String)
    (found : Json.Field Json.Doc (Option α)) (n : Network) :
    Exchanged n (c.posting? op (eidInput eid))
      (fun url r => (r.posted (readFound kind found) url).map (·.getD none))
      (c.lookup op eid kind found n) := by
  rw [lookup_eq]
  exact (c.exchanged_post op (eidInput eid) (readFound kind found) n).map (·.getD none)

section

variable {c : Client} {n : Network} {q : Request} {e : Error} {op : Operation} {body : Json}

theorem mappingDatabase_of_error (reading : c.reading? = some q)
    (failed : (exchange q n).1 = .error e) :
    (c.mappingDatabase n).1 = if e.isNotFound then .ok .empty else .error e := by
  rw [reading?] at reading
  rw [mappingDatabase]
  cases hurl : c.databaseUrl with
  | error _ =>
    rw [hurl] at reading
    cases reading
  | ok u =>
    rw [hurl] at reading
    cases reading
    dsimp only
    generalize exchange (c.getRequest u) n = o at failed ⊢
    rcases o with ⟨_ | _, m⟩
    · cases failed
      cases e <;> rfl
    · cases failed

theorem post_of_error {α : Type} (posting : c.posting? op body = some q)
    (failed : (exchange q n).1 = .error e) (read : Json.Doc → Json.Decoded α) :
    (c.post op body read n).1 = .error e := by
  rw [posting?] at posting
  rw [post]
  cases hurl : c.operationUrl op with
  | error _ =>
    rw [hurl] at posting
    cases posting
  | ok u =>
    rw [hurl] at posting
    cases posting
    dsimp only
    generalize exchange (c.postRequest u body) n = o at failed ⊢
    rcases o with ⟨_ | _, m⟩ <;> cases failed
    rfl

theorem removeRaw_of_error (posting : c.posting? op body = some q)
    (failed : (exchange q n).1 = .error e) : (c.removeRaw op body n).1 = .error e := by
  rw [removeRaw_eq, post_of_error posting failed]
  rfl

theorem invokeUnit_of_error (posting : c.posting? op (input body) = some q)
    (failed : (exchange q n).1 = .error e) : (c.invokeUnit op body n).1 = .error e := by
  rw [invokeUnit_eq, post_of_error posting failed]
  rfl

theorem lookup_of_error {α : Type} {eid : Json} (posting : c.posting? op (eidInput eid) = some q)
    (failed : (exchange q n).1 = .error e) (kind : String)
    (found : Json.Field Json.Doc (Option α)) : (c.lookup op eid kind found n).1 = .error e := by
  rw [lookup_eq, post_of_error posting failed]
  rfl

end

end Client

end EidMap.Rpc
