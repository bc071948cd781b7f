import EidMap.Proofs.Service.Refresh

/-!
# Running a command

A command posts its input to its operation. If that is answered well and changes the store, the
table of the command is loaded again. Main statement: what is sent, the result, the banner and the
rows for every command, in any state and with any replies.
-/

namespace EidMap

namespace Command

def topic (c : Command) : Topic := if c.targetsKeys then .keys else .mappings

def posted : Command → Json
  | .addKey r | .updateKey r => Rpc.Client.keyInput r.scopedEid.toWire r.key
  | .addMapping r | .updateMapping r => Rpc.Client.recordInput r.record
  | .getKey r | .removeKey r | .getMapping r | .removeMapping r => .object [("eid", r.eid.toWire)]

end Command

namespace Service

open Rpc.Client (readOutput readFound)

variable {s : Service} {c : Command} {t : Topic} {n : Rpc.Network} {T : Table t.Row}

def commanding? (s : Service) (c : Command) : Option Rpc.Request :=
  s.posting? c.operation (Rpc.input c.posted)

/-- A reply that makes a command succeed, and the result. The answer to a change may be empty or
have any output; that to a question must hold what was asked for. -/
def Answers (c : Command) (x : Result) (reply : Rpc.Reply) : Prop :=
  match c with
  | .getKey r => ∃ k, x = .key (foundKey r.eid k) ∧
    reply.Answered (readFound "struct GetKeyOutput"
      (Json.optional "mapping-authkey" Stored.Secret.read)) (some (some k))
  | .getMapping r => ∃ m, x = .mapping (foundMapping r.eid m) ∧
    reply.Answered (readFound "struct GetMappingOutput"
      (Json.optional "mapping-record" Stored.Record.read)) (some (some m))
  | _ => x = .done ∧ ∃ o, reply.Answered (readOutput Json.value .null) o

theorem ofDone_eq (x : Outcome Unit × Service) : ofDone x = (x.1.map fun _ => .done, x.2) := by
  rcases x with ⟨_ | _, s⟩ <;> rfl

theorem ofFound_eq {β : Type} (entity : String) (eid : Address) (result : β → Result)
    (x : Outcome (Option β) × Service) :
    ofFound entity eid result x =
      (x.1 >>= fun o => o.elim (.error (.notFound entity eid.display)) fun b => .ok (result b),
        x.2) := by
  rcases x with ⟨_ | _ | _, s⟩ <;> rfl

theorem done_put (op : Rpc.Operation) (body : Json) :
    ofDone ((s.put t n T).call fun c => c.invokeUnit op body) =
      ((ofDone (({ s with network := n }).call fun c => c.invokeUnit op body)).1,
        s.put t (n.after (n.takes (s.posting? op (Rpc.input body)))) T) := by
  rw [ofDone_eq, ofDone_eq, call_put fun c => c.exchanged_invokeUnit op body n]
  rfl

theorem done_eq_ok (op : Rpc.Operation) (body : Json) {x : Result} :
    (ofDone (({ s with network := n }).call fun c => c.invokeUnit op body)).1 = .ok x ↔
      n.takes (s.posting? op (Rpc.input body)) ≠ [] ∧
        x = .done ∧ ∃ o, (n.reply 0).Answered (readOutput Json.value .null) o := by
  have good : ∀ (url : Url) (a : Unit),
      ((n.reply 0).posted (readOutput Json.value .null) url).map (fun _ => ()) = .ok a ↔
        (fun _ => ∃ o, (n.reply 0).Answered (readOutput Json.value .null) o) a := by
    intro url a
    simp [Json.map_eq_ok, Rpc.Reply.posted_eq_ok]
  have hcall := @call_eq_ok s n Unit _ _ _ (fun c => c.exchanged_invokeUnit op body n) _ good
  rw [ofDone_eq, Json.map_eq_ok]
  constructor
  · rintro ⟨u, hu, rfl⟩
    obtain ⟨htakes, ho⟩ := hcall.1 hu
    exact ⟨htakes, rfl, ho⟩
  · rintro ⟨htakes, rfl, ho⟩
    exact ⟨(), hcall.2 ⟨htakes, ho⟩, rfl⟩

variable {q : Rpc.Request} {e : Rpc.Error}

theorem done_of_error (op : Rpc.Operation) (body : Json)
    (posting : s.posting? op (Rpc.input body) = some q)
    (failed : (Rpc.Client.exchange q n).1 = .error e) :
    (ofDone (({ s with network := n }).call fun c => c.invokeUnit op body)).1 =
      .error (.ofRpc e) := by
  rw [ofDone_eq, call_of_request posting fun _ hc => Rpc.Client.invokeUnit_of_error hc failed]
  rfl

section

variable {β : Type} {kind entity : String} {eid : Address} {result : β → Result}
  {field : Json.Field Json.Doc (Option β)} {op : Rpc.Operation}

theorem found_put (wire : Json) :
    ofFound entity eid result ((s.put t n T).call fun c => c.lookup op wire kind field) =
      ((ofFound entity eid result
          (({ s with network := n }).call fun c => c.lookup op wire kind field)).1,
        s.put t (n.after (n.takes (s.posting? op (Rpc.eidInput wire)))) T) := by
  rw [ofFound_eq, ofFound_eq, call_put fun c => c.exchanged_lookup op wire kind field n]
  rfl

theorem found_eq_ok (wire : Json) {x : Result} :
    (ofFound entity eid result
        (({ s with network := n }).call fun c => c.lookup op wire kind field)).1 = .ok x ↔
      n.takes (s.posting? op (Rpc.eidInput wire)) ≠ [] ∧
        ∃ b, x = result b ∧ (n.reply 0).Answered (readFound kind field) (some (some b)) := by
  have good : ∀ (url : Url) (a : Option β),
      ((n.reply 0).posted (readFound kind field) url).map (·.getD none) = .ok a ↔
        (fun a => ∃ o, (n.reply 0).Answered (readFound kind field) o ∧ o.getD none = a) a := by
    intro url a
    simp [Json.map_eq_ok, Rpc.Reply.posted_eq_ok]
  have hcall := @call_eq_ok s n (Option β) _ _ _
    (fun c => c.exchanged_lookup op wire kind field n) _ good
  rw [ofFound_eq, Json.bind_eq_ok]
  constructor
  · rintro ⟨o, ho, hx⟩
    obtain ⟨htakes, a, ha, rfl⟩ := hcall.1 ho
    match a, hx with
    | some (some b), hx =>
      cases hx
      exact ⟨htakes, b, rfl, ha⟩
  · rintro ⟨htakes, b, rfl, hb⟩
    exact ⟨some b, hcall.2 ⟨htakes, some (some b), hb, rfl⟩, rfl⟩

theorem found_of_error (wire : Json) (posting : s.posting? op (Rpc.eidInput wire) = some q)
    (failed : (Rpc.Client.exchange q n).1 = .error e) :
    (ofFound entity eid result
        (({ s with network := n }).call fun c => c.lookup op wire kind field)).1 =
      .error (.ofRpc e) := by
  rw [ofFound_eq, call_of_request posting fun _ hc =>
    Rpc.Client.lookup_of_error hc failed kind field]
  rfl

end

theorem dispatch_put :
    (s.put t n T).dispatch c = ((({ s with network := n }).dispatch c).1,
      s.put t (n.after (n.takes (s.commanding? c))) T) := by
  cases c with
  | getKey r | getMapping r => exact found_put r.eid.toWire
  | removeKey r | removeMapping r => exact done_put _ _
  | addKey r | updateKey r => exact done_put _ _
  | addMapping r | updateMapping r => exact done_put _ _

theorem dispatch_self (s : Service) (c : Command) :
    s.dispatch c = ((s.dispatch c).1,
      s.put c.topic (s.network.after (s.network.takes (s.commanding? c)))
        (c.topic.shelf.get s)) := by
  have h := @dispatch_put s c c.topic s.network (c.topic.shelf.get s)
  rwa [put_self] at h

theorem dispatch_eq_ok {x : Result} :
    (({ s with network := n }).dispatch c).1 = .ok x ↔
      n.takes (s.commanding? c) ≠ [] ∧ Answers c x (n.reply 0) := by
  cases c with
  | getKey r | getMapping r => exact found_eq_ok r.eid.toWire
  | removeKey r | removeMapping r => exact done_eq_ok _ _
  | addKey r | updateKey r => exact done_eq_ok _ _
  | addMapping r | updateMapping r => exact done_eq_ok _ _

theorem dispatch_of_error (posting : s.commanding? c = some q)
    (failed : (Rpc.Client.exchange q n).1 = .error e) :
    (({ s with network := n }).dispatch c).1 = .error (.ofRpc e) := by
  cases c with
  | getKey r | getMapping r => exact found_of_error r.eid.toWire posting failed
  | removeKey r | removeMapping r => exact done_of_error _ _ posting failed
  | addKey r | updateKey r => exact done_of_error _ _ posting failed
  | addMapping r | updateMapping r => exact done_of_error _ _ posting failed

def commandedLoad (s : Service) (c : Command) : Outcome Stored.Database :=
  s.load (s.network.after (s.network.takes (s.commanding? c)))

theorem execute_eq (s : Service) (c : Command) : s.execute c = s.executeOn c.topic.shelf c := by
  cases c <;> rfl

/-- The requests of a command that are received, its result and the table it leaves. A change is
followed by a load, which may fail after the change was made. -/
inductive Way (s : Service) (c : Command) :
    List Rpc.Request → Outcome Result → Table c.topic.Row → Prop
  | refused {e : ServiceError} (dispatch : (s.dispatch c).1 = .error e) :
    Way s c (s.network.takes (s.commanding? c)) (.error (e.asOperationError c.operation.name))
      ((c.topic.shelf.get s).record c.operation.name
        (.error (e.asOperationError c.operation.name).message))
  | answered {x : Result} (dispatch : (s.dispatch c).1 = .ok x)
    (read : c.operation.isWrite = false) :
    Way s c (s.network.takes (s.commanding? c)) (.ok x)
      ((c.topic.shelf.get s).record c.operation.name (.ok ()))
  | unreloaded {x : Result} {e : ServiceError} (dispatch : (s.dispatch c).1 = .ok x)
    (write : c.operation.isWrite = true) (load : s.commandedLoad c = .error e) :
    Way s c (s.network.takes (s.commanding? c) ++ s.network.takes s.reading?) (.ok x)
      ((c.topic.shelf.get s).failed (e.asLoadError (c.topic.shelf.get s).name).message)
  | reloaded {x : Result} {d : Stored.Database} (dispatch : (s.dispatch c).1 = .ok x)
    (write : c.operation.isWrite = true) (load : s.commandedLoad c = .ok d) :
    Way s c (s.network.takes (s.commanding? c) ++ s.network.takes s.reading?) (.ok x)
      (((c.topic.shelf.get s).shown (c.topic.shelf.rows d)).record c.operation.name (.ok ()))

theorem way_execute (s : Service) (c : Command) :
    ∃ sent r T, Way s c sent r T ∧
      s.execute c = (r, s.put c.topic (s.network.after sent) T) := by
  rw [execute_eq, executeOn, dispatch_self]
  cases hresult : (s.dispatch c).1 with
  | error e =>
    refine ⟨_, _, _, .refused hresult, ?_⟩
    exact congrArg (Prod.mk _) (note_put _ _)
  | ok x =>
    cases hwrite : c.operation.isWrite with
    | false =>
      refine ⟨_, _, _, .answered hresult hwrite, ?_⟩
      exact congrArg (Prod.mk _) (note_put _ _)
    | true =>
      dsimp only
      rw [if_pos rfl]
      cases hload : s.load (s.network.after (s.network.takes (s.commanding? c))) with
      | error e =>
        refine ⟨_, _, _, .unreloaded hresult hwrite hload, ?_⟩
        rw [reload_of_not_load hload, Rpc.Network.takes_after, Rpc.Network.after_after]
      | ok d =>
        refine ⟨_, _, _, .reloaded hresult hwrite hload, ?_⟩
        rw [reload_of_load hload, Rpc.Network.takes_after, Rpc.Network.after_after]

theorem commandedLoad_eq_ok {x : Result} (h : (s.dispatch c).1 = .ok x) {d : Stored.Database} :
    s.commandedLoad c = .ok d ↔
      s.network.takes s.reading? ≠ [] ∧ (s.network.reply 1).Gives d := by
  obtain ⟨q, -, hq⟩ := Rpc.Network.exists_of_takes_ne_nil (dispatch_eq_ok.1 h).1
  rw [commandedLoad, load_eq_ok, Rpc.Network.takes_after, Rpc.Network.reply_after, hq]
  rfl

namespace Way

variable {sent : List Rpc.Request} {r : Outcome Result} {T : Table c.topic.Row}

theorem returned (h : Way s c sent r T) :
    r = (s.dispatch c).1.mapError (·.asOperationError c.operation.name) := by
  cases h with
  | refused dispatch | answered dispatch | unreloaded dispatch | reloaded dispatch =>
    rw [dispatch]
    rfl

theorem eq_ok (h : Way s c sent r T) {x : Result} : r = .ok x ↔ (s.dispatch c).1 = .ok x := by
  rw [h.returned]
  cases (s.dispatch c).1 <;> simp [Except.mapError]

theorem sends_load (h : Way s c sent r T) {x : Result} (ok : r = .ok x)
    (write : c.operation.isWrite = true) :
    sent = s.network.takes (s.commanding? c) ++ s.network.takes s.reading? := by
  cases h with
  | refused => cases ok
  | answered _ read => cases write.symm.trans read
  | unreloaded | reloaded => rfl

theorem sends_only (h : Way s c sent r T) (none : c.operation.isWrite = true → ∀ x, r ≠ .ok x) :
    sent = s.network.takes (s.commanding? c) := by
  cases h with
  | refused | answered => rfl
  | unreloaded _ write | reloaded _ write => exact absurd rfl (none write _)

theorem sent_eq (h : Way s c sent r T) :
    ∃ rest, sent = s.network.takes (s.commanding? c) ++ rest ∧ rest.length ≤ 1 ∧
      ∀ q ∈ rest, s.network.takes (s.commanding? c) ≠ [] ∧ q ∈ s.network.takes s.reading? := by
  cases h with
  | refused | answered => exact ⟨[], (List.append_nil _).symm, Nat.zero_le 1, nofun⟩
  | unreloaded dispatch | reloaded dispatch =>
    exact ⟨_, rfl, s.network.length_takes_le _, fun q hq => ⟨(dispatch_eq_ok.1 dispatch).1, hq⟩⟩

theorem length_le (h : Way s c sent r T) : sent.length ≤ 2 := by
  obtain ⟨rest, rfl, hrest, -⟩ := h.sent_eq
  have hlength := s.network.length_takes_le (s.commanding? c)
  rw [List.length_append]
  omega

theorem asks (h : Way s c sent r T) :
    (∀ q, sent[0]? = some q →
        q.AsksOperation s.settings.url c.operation.name (Rpc.input c.posted)) ∧
      ∀ q, sent[1]? = some q → q.AsksDatabase s.settings.url := by
  obtain ⟨rest, rfl, -, hrest⟩ := h.sent_eq
  rcases s.network.takes_cases (s.commanding? c) with hnone | ⟨post, posting, -, htakes⟩
  · rw [hnone, List.nil_append]
    exact ⟨fun q hq => absurd hnone (hrest q (List.mem_of_getElem? hq)).1,
      fun q hq => absurd hnone (hrest q (List.mem_of_getElem? hq)).1⟩
  · rw [htakes]
    refine ⟨fun q hq => ?_, fun q hq => ?_⟩
    · cases hq
      exact asksOperation_of_posting? posting
    · obtain ⟨get, reading, rfl⟩ :=
        Rpc.Network.mem_takes (hrest q (List.mem_of_getElem? (i := 0) hq)).2
      exact asksDatabase_of_reading? reading

theorem connected (h : Way s c sent r T) (connects : s.Connects) :
    sent ≠ [] ∧ ∀ x, r = .ok x → c.operation.isWrite = true → sent.length = 2 := by
  have hposts : s.network.takes (s.commanding? c) ≠ [] := connects.posts _ _
  have hreads := connects.reads
  refine ⟨?_, fun x ok write => ?_⟩
  · cases h with
    | refused | answered => exact hposts
    | unreloaded | reloaded => exact List.append_ne_nil_of_left_ne_nil hposts _
  · obtain ⟨post, -, hpost⟩ := Rpc.Network.exists_of_takes_ne_nil hposts
    obtain ⟨get, -, hget⟩ := Rpc.Network.exists_of_takes_ne_nil hreads
    rw [h.sends_load ok write, hpost, hget]
    rfl

theorem unconnected (h : Way s c sent r T) {e : ServiceError} (client : s.client = .error e) :
    sent = [] := by
  have hcommanding : s.commanding? c = none := by
    simp [commanding?, posting?, request?, client, Except.toOption]
  have hreading : s.reading? = none := by
    simp [reading?, request?, client, Except.toOption]
  cases h with
  | refused | answered | unreloaded | reloaded => simp [hcommanding, hreading, Rpc.Network.takes]

theorem succeeded (h : Way s c sent r T) :
    T.status = .operationSucceeded c.operation.name ↔ ∃ x, r = .ok x ∧
      (c.operation.isWrite = true → ∃ d, s.commandedLoad c = .ok d) := by
  cases h with
  | refused => simp [Table.record]
  | @answered x _ read => simp [Table.record, read]
  | unreloaded _ write load => simp [write, load]
  | reloaded _ write load => simp [Table.record, load]

theorem of_load (h : Way s c sent r T) {x : Result} {d : Stored.Database} (ok : r = .ok x)
    (write : c.operation.isWrite = true) (load : s.commandedLoad c = .ok d) :
    T.items = c.topic.shelf.rows d := by
  cases h with
  | refused => cases ok
  | answered _ read => cases write.symm.trans read
  | unreloaded _ _ load' => cases load.symm.trans load'
  | reloaded _ _ load' =>
    cases load.symm.trans load'
    simp

theorem of_not_load (h : Way s c sent r T) {x : Result} {e : ServiceError} (ok : r = .ok x)
    (write : c.operation.isWrite = true) (load : s.commandedLoad c = .error e) :
    T.status = .loadError (e.asLoadError (c.topic.shelf.get s).name).message ∧
      T.rows = (c.topic.shelf.get s).rows := by
  cases h with
  | refused => cases ok
  | answered _ read => cases write.symm.trans read
  | unreloaded _ _ load' =>
    cases load.symm.trans load'
    exact ⟨Table.status_failed _ _, Table.rows_failed _ _⟩
  | reloaded _ _ load' => cases load.symm.trans load'

theorem of_error (h : Way s c sent r T) {e : ServiceError} (failed : r = .error e) :
    T.status = .operationFailed c.operation.name e.message ∧
      T.rows = (c.topic.shelf.get s).rows := by
  cases h with
  | refused =>
    cases failed
    exact ⟨rfl, rfl⟩
  | answered | unreloaded | reloaded => cases failed

theorem of_read (h : Way s c sent r T) (read : c.operation.isWrite = false) :
    T.rows = (c.topic.shelf.get s).rows ∧ T.generation = (c.topic.shelf.get s).generation := by
  cases h with
  | refused | answered => exact ⟨Table.rows_record _ _ _, Table.generation_record _ _ _⟩
  | unreloaded _ write | reloaded _ write => cases write.symm.trans read

end Way

theorem execute_of_error (posting : s.commanding? c = some q)
    (failed : (Rpc.Client.exchange q s.network).1 = .error e) :
    (s.execute c).1 = .error ((ServiceError.ofRpc e).asOperationError c.operation.name) ∧
      (s.execute c).2.network = s.network.after (s.network.takes (some q)) := by
  obtain ⟨sent, r, T, hway, hexecute⟩ := way_execute s c
  have hdispatch : (s.dispatch c).1 = .error (.ofRpc e) := dispatch_of_error posting failed
  have hr := hway.returned
  rw [hdispatch] at hr
  have hsent := hway.sends_only fun _ x hx => by cases hr.symm.trans hx
  rw [hexecute, network_put, hsent, posting]
  exact ⟨hr, rfl⟩

/-- What a command sends, returns and leaves. -/
structure Execution (s : Service) (c : Command) (sent : List Rpc.Request) (r : Outcome Result)
    (s' : Service) : Prop where
  left : s' = s.put c.topic (s.network.after sent) (c.topic.shelf.get s')
  commanding : ∀ q, s.commanding? c = some q ↔ ∃ client url, s.client = .ok client ∧
    client.operationUrl c.operation = .ok url ∧ q = client.postRequest url (Rpc.input c.posted)
  reading : ∀ q, s.reading? = some q ↔ ∃ client url, s.client = .ok client ∧
    client.databaseUrl = .ok url ∧ q = client.getRequest url
  sends_load : ∀ x, r = .ok x → c.operation.isWrite = true →
    sent = s.network.takes (s.commanding? c) ++ s.network.takes s.reading?
  sends_only : (c.operation.isWrite = true → ∀ x, r ≠ .ok x) →
    sent = s.network.takes (s.commanding? c)
  length_le : sent.length ≤ 2
  asks_operation : ∀ q, sent[0]? = some q →
    q.AsksOperation s.settings.url c.operation.name (Rpc.input c.posted)
  asks_database : ∀ q, sent[1]? = some q → q.AsksDatabase s.settings.url
  connected : s.Connects →
    sent ≠ [] ∧ ∀ x, r = .ok x → c.operation.isWrite = true → sent.length = 2
  unconnected : ∀ e, s.client = .error e → sent = []
  returned : r = (s.dispatch c).1.mapError (·.asOperationError c.operation.name)
  answered : ∀ x, r = .ok x ↔
    s.network.takes (s.commanding? c) ≠ [] ∧ Answers c x (s.network.reply 0)
  loads : ∀ x, r = .ok x → ∀ d, s.commandedLoad c = .ok d ↔
    s.network.takes s.reading? ≠ [] ∧ (s.network.reply 1).Gives d
  succeeded : (c.topic.shelf.get s').status = .operationSucceeded c.operation.name ↔
    ∃ x, r = .ok x ∧ (c.operation.isWrite = true → ∃ d, s.commandedLoad c = .ok d)
  reloaded : ∀ x d, r = .ok x → c.operation.isWrite = true → s.commandedLoad c = .ok d →
    (c.topic.shelf.get s').items = c.topic.shelf.rows d
  unreloaded : ∀ x e, r = .ok x → c.operation.isWrite = true → s.commandedLoad c = .error e →
    (c.topic.shelf.get s').status =
        .loadError (e.asLoadError (c.topic.shelf.get s).name).message ∧
      (c.topic.shelf.get s').rows = (c.topic.shelf.get s).rows
  refused : ∀ e, r = .error e →
    (c.topic.shelf.get s').status = .operationFailed c.operation.name e.message ∧
      (c.topic.shelf.get s').rows = (c.topic.shelf.get s).rows
  read : c.operation.isWrite = false →
    (c.topic.shelf.get s').rows = (c.topic.shelf.get s).rows ∧
      (c.topic.shelf.get s').generation = (c.topic.shelf.get s).generation

/-- Every command, in any state of the service and with any replies of the store. -/
theorem execution_execute (s : Service) (c : Command) :
    ∃ sent, Execution s c sent (s.execute c).1 (s.execute c).2 := by
  obtain ⟨sent, r, T, hway, hexecute⟩ := way_execute s c
  rw [hexecute]
  have hget : c.topic.shelf.get (s.put c.topic (s.network.after sent) T) = T := get_put
  obtain ⟨hoperation, hdatabase⟩ := hway.asks
  refine ⟨sent, ?left, fun q => posting?_eq_some, fun q => reading?_eq_some,
    fun x hx hwrite => hway.sends_load hx hwrite, fun hnone => hway.sends_only hnone, hway.length_le,
    hoperation, hdatabase, hway.connected, fun e he => hway.unconnected he, hway.returned, fun x => hway.eq_ok.trans dispatch_eq_ok,
    fun x hx d => commandedLoad_eq_ok (hway.eq_ok.1 hx), ?succeeded, ?reloaded, ?unreloaded,
    ?refused, ?read⟩
  all_goals rw [hget]
  case succeeded => exact hway.succeeded
  case reloaded => exact fun x d hx hwrite hload => hway.of_load hx hwrite hload
  case unreloaded => exact fun x e hx hwrite hload => hway.of_not_load hx hwrite hload
  case refused => exact fun e he => hway.of_error he
  case read => exact fun hread => hway.of_read hread

end Service

end EidMap
