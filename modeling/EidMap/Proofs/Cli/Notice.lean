import EidMap.Proofs.Cli.Lockstep
import EidMap.Proofs.Rpc.Resource

/-!
# What is noticed before a store is asked

A call that fails with the status of a mistake fails so on every network, and leaves it as it was.
What can be wrong behind the first request is never a mistake of the user: a store that has a URL for
its database has one for every operation.
-/

namespace EidMap

def FailsAs {ε α : Type} (P : ε → Prop) (x : Except ε α) : Prop := ∀ e, x = .error e → P e

namespace FailsAs

variable {ε ε' α β : Type} {P : ε → Prop} {x : Except ε α}

theorem ok (a : α) : FailsAs P (.ok a : Except ε α) := nofun

theorem error {e : ε} (h : P e) : FailsAs P (.error e : Except ε α) := by
  rintro _ ⟨⟩
  exact h

theorem bind (h : FailsAs P x) {f : α → Except ε β} (hf : ∀ a, FailsAs P (f a)) :
    FailsAs P (x >>= f) := by
  cases x with
  | ok a => exact hf a
  | error e => exact .error (h e rfl)

theorem map (h : FailsAs P x) (f : α → β) : FailsAs P (x.map f) := by
  cases x with
  | ok a => exact .ok (f a)
  | error e => exact .error (h e rfl)

theorem mapError {Q : ε' → Prop} {f : ε → ε'} (h : FailsAs P x) (hf : ∀ e, P e → Q (f e)) :
    FailsAs Q (x.mapError f) := by
  cases x with
  | ok a => exact .ok a
  | error e => exact .error (hf e (h e rfl))

theorem mapM {f : α → Except ε β} (hf : ∀ a, FailsAs P (f a)) (as : List α) :
    FailsAs P (as.mapM f) := by
  induction as with
  | nil => exact .ok []
  | cons a as ih =>
    rw [List.mapM_cons]
    exact (hf a).bind fun b => ih.bind fun bs => .ok (b :: bs)

end FailsAs

namespace Rpc

def Error.IsUrl : Error → Prop
  | .invalidUrl _ => True
  | _ => False

/-- Whatever is wrong, it is not that a request has no URL. -/
abbrev Sendable {α : Type} (x : Except Error α) : Prop := FailsAs (fun e => ¬e.IsUrl) x

theorem sendable_decodeBody {α : Type} (read : Json.Doc → Json.Decoded α) (body : String) :
    Sendable (decodeBody read body) := by
  rw [decodeBody]
  split
  · exact .ok _
  · exact .error not_false

namespace Reply

variable (url : Url) (r : Reply)

theorem sendable_result : Sendable (r.result url) := by
  cases r with
  | answer status body =>
    intro e h
    rcases result_eq_error h with ⟨-, rfl⟩ | ⟨-, -, rfl⟩ | ⟨-, -, messages, rfl⟩ <;>
      exact not_false
  | close | truncate | hang => exact .error not_false

theorem sendable_database : Sendable (r.database url) := by
  rw [database]
  split
  · exact .ok _
  · rename_i e _ h
    exact .error (sendable_result url r e h)
  · exact sendable_decodeBody _ _

theorem sendable_posted {α : Type} (read : Json.Doc → Json.Decoded α) :
    Sendable (r.posted read url) := by
  rw [posted]
  split
  · rename_i e h
    exact .error (sendable_result url r e h)
  · split_ifs
    · exact .ok _
    · exact (sendable_decodeBody read _).map some

theorem sendable_acceptance : Sendable (r.acceptance url) := by
  rw [acceptance_eq]
  exact (sendable_posted url r Json.value).map _

end Reply

end Rpc

namespace Cli

theorem status_api (message : String) (status : Option Nat) :
    serviceStatus (.api message status) ≠ .usage := by
  rw [serviceStatus, Error.ofService]
  unfold Error.status
  split <;> first | exact ExitStatus.noConfusion | simp_all

theorem status_relabel (l : Label) (e : ServiceError) :
    serviceStatus (l.relabel e) = .usage ↔ serviceStatus e = .usage := by
  cases e with
  | api message status =>
    cases l <;> exact iff_of_false ExitStatus.noConfusion (status_api message status)
  | unexpected message =>
    cases l <;> exact iff_of_false ExitStatus.noConfusion (status_api message none)
  | _ => cases l <;> exact Iff.rfl

theorem isUrl_of_status {e : Rpc.Error} (h : serviceStatus (.ofRpc e) = .usage) : e.IsUrl := by
  cases e with
  | invalidUrl e => trivial
  | transport fault url =>
    cases fault with
    | connect | timeout => cases h
    | _ => exact absurd h (status_api _ _)
  | refused status messages => exact absurd h (status_api _ _)
  | undecodable reason preview => exact absurd h (status_api _ _)
  | _ => cases h

section

variable {s : Service} {α : Type} {n : Rpc.Network} {e : ServiceError}

theorem call_usage {f : Rpc.Client → Rpc.Network → Except Rpc.Error α × Rpc.Network}
    {q : Rpc.Client → Except Rpc.Error Rpc.Request} {r : Rpc.Client → Option Rpc.Request}
    {g : Url → Rpc.Reply → Except Rpc.Error α}
    (hf : ∀ c n, (f c n).1 = Rpc.Client.outcome n g (q c)) (hr : ∀ c, r c = (q c).toOption)
    (sendable : ∀ url reply, Rpc.Sendable (g url reply))
    (failed : (({ s with network := n }).call f).1 = .error e) (usage : serviceStatus e = .usage) :
    s.request? r = none ∧ ∀ m, (({ s with network := m }).call f).1 = .error e := by
  have hclient : ∀ m, ({ s with network := m } : Service).client = s.client := fun _ => rfl
  simp only [Likeness.call_fst, hclient, hf] at failed ⊢
  rw [Service.request?]
  cases hc : s.client with
  | error e' =>
    rw [hc] at failed
    exact ⟨rfl, fun _ => failed⟩
  | ok c =>
    rw [hc] at failed
    change (Rpc.Client.outcome n g (q c)).mapError .ofRpc = .error e at failed
    change (r c) = none ∧ ∀ m, (Rpc.Client.outcome m g (q c)).mapError .ofRpc = .error e
    rw [hr]
    cases hq : q c with
    | error e' =>
      rw [hq] at failed
      exact ⟨rfl, fun _ => failed⟩
    | ok request =>
      -- The request was built, so what is wrong is not its URL.
      have houtcome : Rpc.Sendable (Rpc.Client.outcome n g (q c)) := by
        rw [hq, Rpc.Client.outcome]
        split
        · exact sendable _ _
        · exact .error not_false
      have hplain := houtcome.mapError (f := ServiceError.ofRpc)
        (Q := fun e => serviceStatus e ≠ .usage) fun e' h h' => h (isUrl_of_status h')
      exact absurd usage (hplain e failed)

theorem load_usage (failed : s.load n = .error e) (usage : serviceStatus e = .usage) :
    s.reading? = none ∧ ∀ m, s.load m = .error e :=
  call_usage (fun c n => c.mappingDatabase_fst n) (fun _ => Likeness.toOption_map _ _)
    Rpc.Reply.sendable_database failed usage

theorem post_usage {op : Rpc.Operation} {body : Json} (failed : s.post n op body = .error e)
    (usage : serviceStatus e = .usage) : s.posting? op body = none :=
  (call_usage (fun c n => c.removeRaw_fst op body n) (fun _ => Likeness.toOption_map _ _)
    Rpc.Reply.sendable_acceptance failed usage).1

theorem done_usage {op : Rpc.Operation} {body : Json}
    (failed : (Service.ofDone (({ s with network := n }).call fun c => c.invokeUnit op body)).1 =
      .error e) (usage : serviceStatus e = .usage) :
    s.posting? op (Rpc.input body) = none ∧ ∀ m,
      (Service.ofDone (({ s with network := m }).call fun c => c.invokeUnit op body)).1 =
        .error e := by
  simp only [Service.ofDone_eq] at failed ⊢
  cases hcall : (({ s with network := n }).call fun c => c.invokeUnit op body).1 with
  | ok u =>
    rw [hcall] at failed
    cases failed
  | error e' =>
    rw [hcall] at failed
    cases failed
    obtain ⟨hposting, hsame⟩ := call_usage (fun c n => c.invokeUnit_fst op body n)
      (fun _ => Likeness.toOption_map _ _)
      (fun url reply => (Rpc.Reply.sendable_posted url reply _).map _) hcall usage
    exact ⟨hposting, fun m => by rw [hsame m]; rfl⟩

theorem found_usage {β : Type} {kind entity : String} {eid : Address} {result : β → Service.Result}
    {field : Json.Field Json.Doc (Option β)} {op : Rpc.Operation} (wire : Json)
    (failed : (Service.ofFound entity eid result
      (({ s with network := n }).call fun c => c.lookup op wire kind field)).1 = .error e)
    (usage : serviceStatus e = .usage) :
    s.posting? op (Rpc.eidInput wire) = none ∧ ∀ m, (Service.ofFound entity eid result
      (({ s with network := m }).call fun c => c.lookup op wire kind field)).1 = .error e := by
  simp only [Service.ofFound_eq] at failed ⊢
  rcases hcall : (({ s with network := n }).call fun c => c.lookup op wire kind field).1 with
    e' | _ | b
  · rw [hcall] at failed
    cases failed
    obtain ⟨hposting, hsame⟩ := call_usage (fun c n => c.lookup_fst op wire kind field n)
      (fun _ => Likeness.toOption_map _ _)
      (fun url reply => (Rpc.Reply.sendable_posted url reply _).map _) hcall usage
    exact ⟨hposting, fun m => by rw [hsame m]; rfl⟩
  · rw [hcall] at failed
    cases failed
    cases usage
  · rw [hcall] at failed
    cases failed

theorem dispatch_usage {c : EidMap.Command}
    (failed : (({ s with network := n }).dispatch c).1 = .error e)
    (usage : serviceStatus e = .usage) :
    s.commanding? c = none ∧ ∀ m, (({ s with network := m }).dispatch c).1 = .error e := by
  cases c with
  | getKey r | getMapping r => exact found_usage r.eid.toWire failed usage
  | removeKey r | removeMapping r => exact done_usage failed usage
  | addKey r | updateKey r => exact done_usage failed usage
  | addMapping r | updateMapping r => exact done_usage failed usage

end

/-- What fails as a mistake of the user fails so on every network, and leaves it as it was. -/
def Noticed {ε α : Type} (status : ε → ExitStatus) (x : Service → Except ε α × Service) : Prop :=
  ∀ s e, (x s).1 = .error e → status e = .usage →
    ∀ n, (x { s with network := n }).1 = .error e ∧ (x { s with network := n }).2.network = n

section

variable {ε ε' α β : Type} {status : ε → ExitStatus} {status' : ε' → ExitStatus}

theorem Noticed.andThen {x : Service → Except ε α × Service} (h : Noticed status x) {f : ε → ε'}
    (same : ∀ e, status' (f e) = status e) {g : α → Service → Except ε' β}
    (fine : ∀ a s, FailsAs (status' · ≠ .usage) (g a s)) :
    Noticed status' fun s => ((x s).1.mapError f >>= fun a => g a (x s).2, (x s).2) := by
  intro s e failed usage n
  dsimp only at failed ⊢
  cases hx : (x s).1 with
  | ok a =>
    rw [hx] at failed
    exact absurd usage (fine a _ e failed)
  | error e' =>
    rw [hx] at failed
    cases failed
    obtain ⟨hfailed, hnetwork⟩ := h s e' hx ((same e').symm.trans usage) n
    exact ⟨by rw [hfailed]; rfl, hnetwork⟩

variable (t : Topic) {s : Service} {e : ServiceError}

theorem with_network (s : Service) (n : Rpc.Network) :
    ({ s with network := n } : Service) = s.put t n (t.shelf.get s) := by
  cases t <;> rfl

theorem noticed_refresh : Noticed serviceStatus fun s => s.refresh t.shelf := by
  intro s e failed usage n
  dsimp only at failed ⊢
  rcases Likeness.refresh_cases s t with ⟨e', hload, hrefresh⟩ | ⟨d, -, hrefresh⟩ <;>
    rw [hrefresh] at failed <;> cases failed
  obtain ⟨hreading, hsame⟩ := load_usage hload ((status_relabel (.load _) _).1 usage)
  rw [with_network t, Service.refresh_of_not_load (hsame n), hreading]
  exact ⟨rfl, Service.network_put.trans n.after_nil⟩

theorem noticed_lookup (eidUri : String) :
    Noticed serviceStatus fun s => s.lookup t.shelf eidUri := by
  have hlookup : (fun s : Service => s.lookup t.shelf eidUri) = fun s =>
      ((s.refresh t.shelf).1.mapError id >>= fun T =>
        (T.find? fun a => t.shelf.eidUri a == eidUri).elim
          (.error (.notFound t.shelf.entity eidUri)) .ok, (s.refresh t.shelf).2) := by
    funext s
    rw [Likeness.lookup_eq]
    cases (s.refresh t.shelf).1 <;> rfl
  rw [hlookup]
  refine (noticed_refresh t).andThen (f := id) (fun _ => rfl) (g := fun T _ =>
    (T.find? fun a => t.shelf.eidUri a == eidUri).elim
      (.error (.notFound t.shelf.entity eidUri)) .ok) fun T s => ?_
  cases T.find? fun a => t.shelf.eidUri a == eidUri with
  | none => exact .error ExitStatus.noConfusion
  | some a => exact .ok a

theorem posting?_of_reading? (reading : s.reading? ≠ none) (op : Rpc.Operation) (body : Json) :
    s.posting? op body ≠ none := by
  obtain ⟨q, hq⟩ := Option.ne_none_iff_exists'.1 reading
  obtain ⟨c, u, hclient, hurl, -⟩ := Service.reading?_eq_some.1 hq
  obtain ⟨v, hv, -, -⟩ := Rpc.Client.operationUrl_of_databaseUrl hurl op
  rw [Service.posting?, Service.request?, hclient]
  simp [Except.toOption, Rpc.Client.posting?, hv]

theorem reading?_of_lookup {eidUri : String} {a : t.Row}
    (found : (s.lookup t.shelf eidUri).1 = .ok a) :
    (s.lookup t.shelf eidUri).2.reading? ≠ none := by
  rw [Likeness.lookup_eq] at found ⊢
  rcases Likeness.refresh_cases s t with ⟨e, -, hrefresh⟩ | ⟨d, hload, hrefresh⟩
  · rw [hrefresh] at found
    cases found
  · have hreading : (s.refresh t.shelf).2.reading? = s.reading? := by
      rw [hrefresh]
      cases t <;> rfl
    dsimp only
    rw [hreading]
    intro hnone
    have hheard := (Service.load_eq_ok.1 hload).1
    rw [hnone] at hheard
    exact hheard rfl

theorem noticed_delete (eidUri : String) :
    Noticed serviceStatus fun s => s.delete t.shelf eidUri := by
  intro s e failed usage n
  dsimp only at failed ⊢
  rw [Likeness.delete_eq] at failed ⊢
  rcases hlookup : s.lookup t.shelf eidUri with ⟨e' | a, s₁⟩
  · rw [hlookup] at failed
    cases failed
    obtain ⟨hfailed, hnetwork⟩ := noticed_lookup t eidUri s e (congrArg Prod.fst hlookup) usage n
    dsimp only at hfailed hnetwork
    generalize ({ s with network := n } : Service).lookup t.shelf eidUri = x at hfailed hnetwork ⊢
    obtain ⟨r, s₂⟩ := x
    cases hfailed
    exact ⟨rfl, hnetwork⟩
  · have hreading := reading?_of_lookup t (congrArg Prod.fst hlookup)
    rw [hlookup] at failed hreading
    rw [Service.andThen] at failed
    rcases Likeness.sendRemoval_cases s₁ a with ⟨e', hpost, hremoval⟩ | ⟨-, hremoval⟩
    · rw [hremoval] at failed
      cases failed
      have hposting := post_usage hpost ((status_relabel (.operation _) _).1 usage)
      exact absurd hposting (posting?_of_reading? hreading _ _)
    · rw [hremoval] at failed
      cases failed

theorem noticed_execute (c : EidMap.Command) : Noticed serviceStatus fun s => s.execute c := by
  intro s e failed usage n
  dsimp only at failed ⊢
  obtain ⟨sent, r, T, hway, hexecute⟩ := Service.way_execute s c
  obtain ⟨sent', r', T', hway', hexecute'⟩ := Service.way_execute { s with network := n } c
  rw [hexecute] at failed
  rw [hexecute']
  obtain ⟨e', hdispatch, rfl⟩ : ∃ e', (s.dispatch c).1 = .error e' ∧
      e'.asOperationError c.operation.name = e := by
    rw [hway.returned] at failed
    cases hdispatch : (s.dispatch c).1 with
    | ok x =>
      rw [hdispatch] at failed
      cases failed
    | error e' =>
      rw [hdispatch] at failed
      cases failed
      exact ⟨e', rfl, rfl⟩
  obtain ⟨hposting, hsame⟩ := dispatch_usage (s := s) (n := s.network) hdispatch
    ((status_relabel (.operation _) _).1 usage)
  have hfailed : r' = .error (e'.asOperationError c.operation.name) := by
    rw [hway'.returned, hsame n]
    rfl
  have hsent : sent' = n.takes none :=
    hposting ▸ hway'.sends_only fun _ x hx => by cases hfailed.symm.trans hx
  rw [hsent]
  exact ⟨hfailed, Service.network_put.trans n.after_nil⟩

variable (g : Globals)

theorem noticed_told {x : Service → Service.Outcome α × Service} (h : Noticed serviceStatus x)
    {f : α → Service → Except Error Printed}
    (fine : ∀ a s, FailsAs (fun e : Error => e.status ≠ .usage) (f a s)) :
    Noticed Error.status fun s => told f (x s) := by
  have hsame : ∀ e, (Error.ofService e).status = serviceStatus e := fun _ => rfl
  exact h.andThen hsame fine

theorem noticed_list (sel : Selection) : Noticed Error.status ((rowsOf t).list g sel) := by
  have hlist : (rowsOf t).list g sel = fun s => told _ (s.refresh t.shelf) :=
    funext fun s => Rows.list_eq t sel
  rw [hlist]
  exact noticed_told (noticed_refresh t) fun _ _ => .ok _

theorem noticed_get (eidUri : String) : Noticed Error.status ((rowsOf t).get g eidUri) := by
  have hget : (rowsOf t).get g eidUri = fun s => told _ (s.lookup t.shelf eidUri) :=
    funext fun s => Rows.get_eq t eidUri
  rw [hget]
  exact noticed_told (noticed_lookup t eidUri) fun _ _ => .ok _

theorem noticed_ask (eid : String) : Noticed Error.status ((rowsOf t).ask g eid) := by
  cases h : readAddress "eid" eid with
  | error e =>
    intro s e' failed usage n
    rw [Rows.ask, h] at failed ⊢
    exact ⟨failed, rfl⟩
  | ok a =>
    have hask : (rowsOf t).ask g eid = fun s => told _ (s.execute ((rowsOf t).lookup ⟨a⟩)) :=
      funext fun s => Rows.ask_eq t h
    rw [hask]
    refine noticed_told (noticed_execute _) fun found s => ?_
    rw [Rows.printResult]
    cases (rowsOf t).ofResult found with
    | none => exact .error ExitStatus.noConfusion
    | some a => exact .ok _

theorem noticed_change (c : Except Error EidMap.Command) :
    Noticed Error.status ((rowsOf t).change g c) := by
  cases c with
  | error e =>
    intro s e' failed usage n
    exact ⟨failed, rfl⟩
  | ok c =>
    have hchange : (rowsOf t).change g (.ok c) = fun s => told _ (s.execute c) :=
      funext fun s => Rows.change_eq t c
    rw [hchange]
    exact noticed_told (noticed_execute c) fun _ _ => .ok _

theorem noticed_remove (eidUri : String) : Noticed Error.status ((rowsOf t).delete g eidUri) := by
  cases h : g.yes with
  | false =>
    intro s e failed usage n
    rw [Rows.delete, h] at failed ⊢
    exact ⟨failed, rfl⟩
  | true =>
    have hdelete : (rowsOf t).delete g eidUri = fun s => told _ (s.delete t.shelf eidUri) :=
      funext fun s => Rows.delete_eq t h eidUri
    rw [hdelete]
    exact noticed_told (noticed_delete t eidUri) fun _ _ => .ok _

theorem noticed_run (c : StoreCommand) : Noticed Error.status (c.run g) := by
  cases c with
  | list t sel =>
    have hlist := noticed_list t g sel
    cases t <;> exact hlist
  | get t eidUri =>
    have hget := noticed_get t g eidUri
    cases t <;> exact hget
  | lookup t eid =>
    have hask := noticed_ask t g eid
    cases t <;> exact hask
  | writeMapping c m =>
    -- The network has no part in what a file holds.
    exact fun s => noticed_change .mappings g ((m.request s.files).map (mappingChange c)) s
  | writeKey c k => exact noticed_change .keys g (k.request.map (keyChange c))
  | delete t eidUri =>
    have hdelete := noticed_remove t g eidUri
    cases t <;> exact hdelete

end

end Cli

end EidMap
