import EidMap.Proofs.Rpc.Outcome
import EidMap.Proofs.Service.Likeness

/-!
# Two services side by side

Two services with the same settings, whose networks listen to the same places and give replies that
belong together, make the same calls in step: they send requests that belong together, and end with
outcomes, rows and banners that do.
-/

namespace EidMap

namespace Likeness

variable {L : Likeness} (hL : L.Lawful) {s s' : Service} (hs : L.Services s s') {t : Topic}
  {n n' : Rpc.Network} (listens : n'.listens = n.listens)

include hL in
theorem Agrees.refl (u : Use) (r : Rpc.Reply) : L.Agrees u r r := by
  have found : ∀ {β : Type} (t : Topic) (row : Address → β → t.Row) (o : Option (Option β)),
      L.Found t row o o := by
    intro β t row o
    rw [Found]
    cases o.getD none with
    | none => exact .none
    | some b => exact .some fun eid => hL.row_refl t _
  have error : ∀ e, L.rpcError e e := fun e => hL.error_refl _
  cases u with
  | database =>
    exact fun url => .refl error (fun d t => List.forall₂_same.2 fun a _ => hL.row_refl t a) _
  | key => exact fun url => .refl error (found .keys _) _
  | mapping => exact fun url => .refl error (found .mappings _) _
  | change | removal => exact fun url => .refl error (fun _ => trivial) _

include hL in
theorem Requests.refl (q : Rpc.Request) : L.Requests q q := by
  refine ⟨rfl, rfl, rfl, ?_⟩
  cases q.body with
  | none => exact .none
  | some v => exact .some (hL.body_refl v)

include hL listens in
theorem takes_refl (q : Option Rpc.Request) :
    List.Forall₂ L.Requests (n.takes q) (n'.takes q) := by
  have htakes : n'.takes q = n.takes q := by
    cases q with
    | none => rfl
    | some q =>
      rw [Rpc.Network.takes, Rpc.Network.takes, Rpc.Network.hears, Rpc.Network.hears, listens]
  rw [htakes]
  exact List.forall₂_same.2 fun q _ => Requests.refl hL q

include hs in
theorem Services.client : s'.client = s.client := by
  rw [Service.client, Service.client, hs.settings, hs.files]

theorem call_fst {α : Type} (s : Service)
    (f : Rpc.Client → Rpc.Network → Except Rpc.Error α × Rpc.Network) :
    (s.call f).1 = s.client >>= fun c => (f c s.network).1.mapError .ofRpc := by
  rw [Service.call]
  cases s.client with
  | error e => rfl
  | ok c =>
    simp only [bind, Except.bind]
    rcases f c s.network with ⟨_ | _, m⟩ <;> rfl

theorem toOption_map {ε α β : Type} (x : Except ε α) (f : α → β) :
    x.toOption.map f = (x.map f).toOption := by
  cases x <;> rfl

section

variable {α : Type} {f f' : Rpc.Client → Rpc.Network → Except Rpc.Error α × Rpc.Network}
  {q q' : Rpc.Client → Except Rpc.Error Rpc.Request} {r : Rpc.Client → Option Rpc.Request}
  {g : Url → Rpc.Reply → Except Rpc.Error α} {P : α → α → Prop}

include hL hs listens in
theorem call_paired (hf : ∀ c, (f c n).1 = Rpc.Client.outcome n g (q c))
    (hf' : ∀ c, (f' c n').1 = Rpc.Client.outcome n' g (q' c))
    (url : ∀ c, (q' c).map Rpc.Request.url = (q c).map Rpc.Request.url)
    (hr : ∀ c, r c = (q c).toOption)
    (agree : n.takes (s.request? r) ≠ [] →
      ∀ url, Paired L.rpcError P (g url (n.reply 0)) (g url (n'.reply 0))) :
    Paired L.error P (({ s with network := n }).call f).1
      (({ s' with network := n' }).call f').1 := by
  have hclient : ({ s' with network := n' } : Service).client = s.client := hs.client
  have hclient' : ({ s with network := n } : Service).client = s.client := rfl
  rw [call_fst, call_fst, hclient, hclient']
  rw [Service.request?] at agree
  cases hc : s.client with
  | error e => exact .error (hL.error_refl e)
  | ok c =>
    rw [hc, Except.toOption, Option.bind_some, hr] at agree
    have hpaired := Rpc.Client.outcome_paired listens (url c) (E := L.rpcError)
      (fun e => hL.error_refl _) agree
    rw [← hf, ← hf'] at hpaired
    exact hpaired.mapError fun _ _ he => he

end

include hL hs listens in
theorem load_paired
    (agree : n.takes s.reading? ≠ [] → L.Agrees .database (n.reply 0) (n'.reply 0)) :
    Paired L.error L.Databases (s.load n) (s'.load n') := by
  rw [Service.load, Service.load, Service.loadDatabase, Service.loadDatabase]
  exact call_paired hL hs listens (fun c => c.mappingDatabase_fst n)
    (fun c => c.mappingDatabase_fst n') (fun c => rfl) (fun c => toOption_map _ _) agree

include hL hs listens in
theorem post_paired {op : Rpc.Operation} {body body' : Json}
    (agree : n.takes (s.posting? op body) ≠ [] → L.Agrees .removal (n.reply 0) (n'.reply 0)) :
    Paired L.error (fun _ _ => True) (s.post n op body) (s'.post n' op body') := by
  have hurl : ∀ c : Rpc.Client, ((c.operationUrl op).map (c.postRequest · body')).map
      Rpc.Request.url = ((c.operationUrl op).map (c.postRequest · body)).map Rpc.Request.url := by
    intro c
    cases c.operationUrl op <;> rfl
  rw [Service.post, Service.post]
  exact call_paired hL hs listens (fun c => c.removeRaw_fst op body n)
    (fun c => c.removeRaw_fst op body' n') hurl (fun c => toOption_map _ _) agree

theorem Serves.agrees {us : List Use} {k i : Nat} {u : Use} (h : L.Serves (us.take k) n n')
    (hi : i < k) (hu : us[i]? = some u) : L.Agrees u (n.reply i) (n'.reply i) :=
  h i u ((List.getElem?_take_of_lt hi).trans hu)

theorem Serves.of_append {us vs : List Use} (h : L.Serves (us ++ vs) n n') : L.Serves us n n' := by
  intro i u hu
  have hi : i < us.length := (List.getElem?_eq_some_iff.1 hu).1
  exact h i u ((List.getElem?_append_left hi).trans hu)

theorem Serves.after {us vs : List Use} {qs qs' : List Rpc.Request} (h : L.Serves (us ++ vs) n n')
    (hqs : qs.length = us.length) (hqs' : qs'.length = us.length) :
    L.Serves vs (n.after qs) (n'.after qs') := by
  intro i u hu
  rw [Rpc.Network.reply_after, Rpc.Network.reply_after, hqs, hqs']
  refine h (us.length + i) u ?_
  rw [List.getElem?_append_right (Nat.le_add_right _ _), Nat.add_sub_cancel_left, hu]

include hs in
theorem Services.reading? : s'.reading? = s.reading? := by
  rw [Service.reading?, Service.request?, hs.client]
  rfl

include hs in
theorem Services.put {qs qs' : List Rpc.Request} {T T' : Table t.Row} (h : L.Tables t T T') :
    L.Services (s.put t (s.network.after qs) T) (s'.put t (s'.network.after qs') T') := by
  have hmappings := hs.tables .mappings
  have hkeys := hs.tables .keys
  cases t with
  | mappings => exact ⟨hs.settings, hs.files, hs.listens, fun | .mappings => h | .keys => hkeys⟩
  | keys => exact ⟨hs.settings, hs.files, hs.listens, fun | .mappings => hmappings | .keys => h⟩

section

variable {α β γ δ : Type} {us vs : List Use} {P : α → β → Prop} {Q : γ → δ → Prop}
  {x : Service.Outcome α × Service} {x' : Service.Outcome β × Service}

include hs in
theorem Twins.services (h : L.Twins t P s s' x x') : L.Services x.2 x'.2 := by
  cases h with
  | mk sent outcome table => exact hs.put table

theorem Twins.bind {f : α → Service.Outcome γ} {g : β → Service.Outcome δ}
    (h : L.Twins t P s s' x x') (next : ∀ a b, P a b → Paired L.error Q (f a) (g b)) :
    L.Twins t Q s s' (x.1 >>= f, x.2) (x'.1 >>= g, x'.2) := by
  cases h with
  | mk sent outcome table => exact .mk sent (outcome.bind next) table

theorem Twins.after {qs qs' : List Rpc.Request} {T T' : Table t.Row}
    (sent : List.Forall₂ L.Requests qs qs')
    (h : L.Twins t P (s.put t (s.network.after qs) T) (s'.put t (s'.network.after qs') T') x x') :
    L.Twins t P s s' x x' := by
  cases h with
  | mk rest outcome table =>
    rw [Service.network_put, Service.network_put, Rpc.Network.after_after, Rpc.Network.after_after,
      Service.put_put, Service.put_put]
    exact .mk (List.rel_append sent rest) outcome table

include hs in
theorem InStep.andThen {f : α → Service → Service.Outcome γ × Service}
    {g : β → Service → Service.Outcome δ × Service} (h : L.InStep t us P s s' x x')
    (sends : Service.Sends us s x.2) (full : ∀ a, x.1 = .ok a → s.sentTo x.2 = us.length)
    (second : ∀ a, x.1 = .ok a → Service.Sends vs x.2 (f a x.2).2)
    (next : ∀ a b, P a b → L.Services x.2 x'.2 → L.InStep t vs Q x.2 x'.2 (f a x.2) (g b x'.2)) :
    L.InStep t (us ++ vs) Q s s' (Service.andThen x f) (Service.andThen x' g) := by
  intro agree
  obtain ⟨sent, first, length_le⟩ := sends
  rcases x with ⟨e | a, s₁⟩
  · have htake : (us ++ vs).take sent.length = us.take sent.length := by
      rw [List.take_append_of_le_length length_le]
    rw [Service.andThen, Service.sentTo_eq first, htake, ← Service.sentTo_eq first] at agree
    cases h agree with
    | mk hsent outcome table =>
      cases outcome with
      | error he => exact .mk hsent (.error he) table
  · obtain ⟨rest, hrest, -⟩ := second a rfl
    have hlength : sent.length = us.length := Service.sentTo_eq first ▸ full a rfl
    have hnetwork : (f a s₁).2.network = s.network.after (sent ++ rest) := by
      rw [hrest, first, Rpc.Network.after_after]
    have htake : (us ++ vs).take (sent ++ rest).length = us ++ vs.take rest.length := by
      rw [List.length_append, hlength, List.take_length_add_append]
    rw [Service.andThen, Service.sentTo_eq hnetwork, htake] at agree
    have hstep : L.Twins t P s s' (.ok a, s₁) x' := h (by
      rw [Service.sentTo_eq first, hlength, List.take_length]
      exact agree.of_append)
    have hservices := hstep.services hs
    cases hstep with
    | @mk qs qs' _ _ T T' hsent outcome table =>
      cases outcome with
      | ok hab =>
        have hqs : qs.length = us.length := by
          rw [← hlength, ← Service.sentTo_eq first, Service.sentTo_eq Service.network_put]
        refine .after hsent (next a _ hab hservices ?_)
        rw [Service.sentTo_eq hrest, Service.network_put, Service.network_put]
        exact agree.after hqs (hsent.length_eq.symm.trans hqs)

end

theorem refresh_cases (s : Service) (t : Topic) :
    (∃ e, s.load s.network = .error e ∧ s.refresh t.shelf =
      (.error (e.asLoadError (t.shelf.get s).name),
        s.put t (s.network.after (s.network.takes s.reading?))
          ((t.shelf.get s).failed (e.asLoadError (t.shelf.get s).name).message))) ∨
    ∃ d, s.load s.network = .ok d ∧ s.refresh t.shelf =
      (.ok ((t.shelf.get s).shown (t.shelf.rows d)),
        s.put t (s.network.after (s.network.takes s.reading?))
          ((t.shelf.get s).shown (t.shelf.rows d))) := by
  cases hload : s.load s.network with
  | error e =>
    have h := Service.refresh_of_not_load (T := t.shelf.get s) hload
    rw [Service.put_self] at h
    exact .inl ⟨e, rfl, h⟩
  | ok d =>
    have h := Service.refresh_of_load (T := t.shelf.get s) hload
    rw [Service.put_self] at h
    exact .inr ⟨d, rfl, h⟩

theorem network_refresh (s : Service) (t : Topic) :
    (s.refresh t.shelf).2.network = s.network.after (s.network.takes s.reading?) := by
  rcases refresh_cases s t with ⟨e, -, h⟩ | ⟨d, -, h⟩ <;> rw [h, Service.network_put]

theorem sends_refresh (s : Service) (t : Topic) :
    Service.Sends [.database] s (s.refresh t.shelf).2 :=
  Service.sends_of_takes (network_refresh s t) _

theorem sentTo_of_refresh {T : Table t.Row} (h : (s.refresh t.shelf).1 = .ok T) :
    s.sentTo (s.refresh t.shelf).2 = 1 := by
  rcases refresh_cases s t with ⟨e, -, hrefresh⟩ | ⟨d, hload, -⟩
  · rw [hrefresh] at h
    cases h
  · exact Service.sentTo_of_takes (network_refresh s t) (Service.load_eq_ok.1 hload).1

include hL hs in
theorem refresh_inStep :
    L.InStep t [.database] (L.Tables t) s s' (s.refresh t.shelf) (s'.refresh t.shelf) := by
  intro agree
  have hsent := takes_refl hL hs.listens s.reading?
  have htable := hs.tables t
  have hload : Paired L.error L.Databases (s.load s.network) (s'.load s'.network) :=
    load_paired hL hs hs.listens fun heard => agree.agrees
      (Service.sentTo_eq (network_refresh s t) ▸ List.length_pos_iff.2 heard) rfl
  rcases refresh_cases s t with ⟨e, hx, h⟩ | ⟨d, hx, h⟩ <;>
    rcases refresh_cases s' t with ⟨e', hx', h'⟩ | ⟨d', hx', h'⟩ <;>
    rw [hx, hx'] at hload <;> cases hload
  · rename_i he
    have hlike := hL.error_load (t.shelf.get s).name he
    rw [h, h', hs.reading?, htable.name]
    exact .mk hsent (.error hlike) (htable.failed hlike)
  · rename_i hd
    rw [h, h', hs.reading?]
    exact .mk hsent (.ok (htable.shown (hd t))) (htable.shown (hd t))

theorem lookup_eq (s : Service) (t : Topic) (uri : String) :
    s.lookup t.shelf uri = ((s.refresh t.shelf).1 >>= fun T =>
      (T.find? fun a => t.shelf.eidUri a == uri).elim (.error (.notFound t.shelf.entity uri)) .ok,
      (s.refresh t.shelf).2) := by
  rw [Service.lookup]
  rcases s.refresh t.shelf with ⟨_ | T, s⟩
  · rfl
  · change _ = ((T.find? fun a => t.shelf.eidUri a == uri).elim _ _, s)
    dsimp only
    cases T.find? fun a => t.shelf.eidUri a == uri <;> rfl

theorem sends_lookup (s : Service) (t : Topic) (uri : String) :
    Service.Sends [.database] s (s.lookup t.shelf uri).2 := by
  rw [lookup_eq]
  exact sends_refresh s t

include hL hs in
theorem lookup_inStep (uri : String) :
    L.InStep t [.database] (L.row t) s s' (s.lookup t.shelf uri) (s'.lookup t.shelf uri) := by
  intro agree
  rw [lookup_eq] at agree
  rw [lookup_eq, lookup_eq]
  refine (refresh_inStep hL hs agree).bind fun T T' hT => ?_
  have hfound := Topic.rel_find? hT.items fun a a' ha =>
    congrArg (· == uri) (hL.row_eidUri ha).symm
  rw [Table.find?, Table.find?]
  generalize T.items.find? _ = o at hfound ⊢
  generalize T'.items.find? _ = o' at hfound ⊢
  cases hfound with
  | none => exact .error (hL.error_refl _)
  | some ha => exact .ok ha

include hs listens in
theorem posting_twins (op : Rpc.Operation) {body body' : Json} (hbody : L.body body body') :
    List.Forall₂ L.Requests (n.takes (s.posting? op body)) (n'.takes (s'.posting? op body')) := by
  rw [Service.posting?, Service.posting?, Service.request?, Service.request?, hs.client]
  cases s.client with
  | error e => exact .nil
  | ok c =>
    rw [Except.toOption, Option.bind_some, Option.bind_some, Rpc.Client.posting?,
      Rpc.Client.posting?]
    cases c.operationUrl op with
    | error e => exact .nil
    | ok u =>
      have hhears : n'.hears (c.postRequest u body') = n.hears (c.postRequest u body) := by
        rw [Rpc.Network.hears, Rpc.Network.hears, listens]
        rfl
      rw [Except.toOption, Option.map_some, Option.map_some, Rpc.Network.takes, Rpc.Network.takes,
        hhears]
      split_ifs
      · exact .cons ⟨rfl, rfl, rfl, .some hbody⟩ .nil
      · exact .nil

theorem sendRemoval_cases (s : Service) (a : t.Row) :
    (∃ e, s.post s.network t.removal (t.shelf.removal a).body = .error e ∧
      s.sendRemoval t.shelf (t.shelf.removal a) = (.error (e.asOperationError t.removal.name),
        s.put t (s.network.after (s.network.takes (s.posting? t.removal (t.shelf.removal a).body)))
          ((t.shelf.get s).record t.removal.name
            (.error (e.asOperationError t.removal.name).message)))) ∨
    s.post s.network t.removal (t.shelf.removal a).body = .ok () ∧
      s.sendRemoval t.shelf (t.shelf.removal a) = (.ok (),
        s.put t (s.network.after (s.network.takes (s.posting? t.removal (t.shelf.removal a).body)))
          (t.shelf.get s)) := by
  cases hpost : s.post s.network t.removal (t.shelf.removal a).body with
  | error e =>
    have h := Service.sendRemoval_of_not_post (T := t.shelf.get s) hpost
    rw [Service.put_self] at h
    exact .inl ⟨e, rfl, h⟩
  | ok _ =>
    have h := Service.sendRemoval_of_post (T := t.shelf.get s) hpost
    rw [Service.put_self] at h
    exact .inr ⟨rfl, h⟩

theorem network_sendRemoval (s : Service) (a : t.Row) :
    (s.sendRemoval t.shelf (t.shelf.removal a)).2.network = s.network.after
      (s.network.takes (s.posting? t.removal (t.shelf.removal a).body)) := by
  rcases sendRemoval_cases s a with ⟨e, -, h⟩ | ⟨-, h⟩ <;> rw [h, Service.network_put]

theorem sends_sendRemoval (s : Service) (a : t.Row) :
    Service.Sends [.removal] s (s.sendRemoval t.shelf (t.shelf.removal a)).2 :=
  Service.sends_of_takes (network_sendRemoval s a) _

theorem sentTo_of_sendRemoval {a : t.Row} {u : Unit}
    (h : (s.sendRemoval t.shelf (t.shelf.removal a)).1 = .ok u) :
    s.sentTo (s.sendRemoval t.shelf (t.shelf.removal a)).2 = 1 := by
  rcases sendRemoval_cases s a with ⟨e, -, hremoval⟩ | ⟨hpost, -⟩
  · rw [hremoval] at h
    cases h
  · exact Service.sentTo_of_takes (network_sendRemoval s a) (Service.post_eq_ok.1 hpost).1

include hL hs in
theorem sendRemoval_inStep {a a' : t.Row} (ha : L.row t a a') :
    L.InStep t [.removal] (fun _ _ => True) s s' (s.sendRemoval t.shelf (t.shelf.removal a))
      (s'.sendRemoval t.shelf (t.shelf.removal a')) := by
  intro agree
  have hsent := posting_twins hs hs.listens t.removal (hL.row_body ha)
  have htable := hs.tables t
  have hpost : Paired L.error (fun _ _ => True)
      (s.post s.network t.removal (t.shelf.removal a).body)
      (s'.post s'.network t.removal (t.shelf.removal a').body) :=
    post_paired hL hs hs.listens fun heard => agree.agrees
      (Service.sentTo_eq (network_sendRemoval s a) ▸ List.length_pos_iff.2 heard) rfl
  rcases sendRemoval_cases s a with ⟨e, hx, h⟩ | ⟨hx, h⟩ <;>
    rcases sendRemoval_cases s' a' with ⟨e', hx', h'⟩ | ⟨hx', h'⟩ <;>
    rw [hx, hx'] at hpost <;> cases hpost
  · rename_i he
    have hlike := hL.error_operation t.removal.name he
    rw [h, h']
    exact .mk hsent (.error hlike) (htable.refused t.removal.name hlike)
  · rw [h, h']
    exact .mk hsent (.ok trivial) htable

theorem network_reload (s : Service) (t : Topic) (op : Rpc.Operation) :
    (s.reload t.shelf op).network = s.network.after (s.network.takes s.reading?) := by
  have hself := Service.put_self s t
  cases hload : s.load s.network with
  | error e =>
    have h := Service.reload_of_not_load (T := t.shelf.get s) hload op
    rw [hself] at h
    rw [h, Service.network_put]
  | ok d =>
    have h := Service.reload_of_load (T := t.shelf.get s) hload op
    rw [hself] at h
    rw [h, Service.network_put]

include hL hs in
theorem reload_inStep (op : Rpc.Operation) {α β : Type} {P : α → β → Prop} {a : α} {b : β}
    (hab : P a b) :
    L.InStep t [.database] P s s' (.ok a, s.reload t.shelf op) (.ok b, s'.reload t.shelf op) := by
  intro agree
  rw [Service.sentTo_eq (network_reload s t op), ← Service.sentTo_eq (network_refresh s t)] at agree
  have hrefresh := refresh_inStep hL hs agree
  rw [Service.reload, Service.reload]
  generalize s.refresh t.shelf = x at hrefresh ⊢
  generalize s'.refresh t.shelf = x' at hrefresh ⊢
  cases hrefresh with
  | mk hsent outcome table =>
    cases outcome with
    | error he => exact .mk hsent (.ok hab) table
    | ok hT =>
      dsimp only
      rw [Service.note_put, Service.note_put]
      exact .mk hsent (.ok hab) (table.succeeded op.name)

theorem delete_eq (s : Service) (t : Topic) (uri : String) :
    s.delete t.shelf uri = Service.andThen (s.lookup t.shelf uri) fun a s =>
      Service.andThen (s.sendRemoval t.shelf (t.shelf.removal a)) fun _ s =>
        (.ok (), s.reload t.shelf t.removal) := by
  rw [Service.delete]
  rcases s.lookup t.shelf uri with ⟨e | a, s⟩
  · rfl
  · dsimp only [Service.andThen]
    rw [t.operation_removal]
    rcases s.sendRemoval t.shelf (t.shelf.removal a) with ⟨e | u, s⟩ <;> rfl

theorem sends_reload (s : Service) (t : Topic) (op : Rpc.Operation) :
    Service.Sends [.database] s (s.reload t.shelf op) :=
  Service.sends_of_takes (network_reload s t op) _

theorem sends_delete (s : Service) (t : Topic) (uri : String) :
    Service.Sends [.database, .removal, .database] s (s.delete t.shelf uri).2 := by
  obtain ⟨sent, r, T, hcourse, hdelete⟩ := Service.course_delete s t uri
  exact ⟨sent, by rw [hdelete, Service.network_put], hcourse.length_le⟩

include hL hs in
theorem delete_inStep (uri : String) :
    L.InStep t [.database, .removal, .database] (fun _ _ => True) s s' (s.delete t.shelf uri)
      (s'.delete t.shelf uri) := by
  have hfull : ∀ a, (s.lookup t.shelf uri).1 = .ok a →
      s.sentTo (s.lookup t.shelf uri).2 = [Use.database].length := by
    intro a ha
    rw [lookup_eq] at ha ⊢
    obtain ⟨T, hT, -⟩ := Json.bind_eq_ok.1 ha
    exact sentTo_of_refresh hT
  rw [delete_eq, delete_eq]
  refine (lookup_inStep hL hs uri).andThen hs (sends_lookup s t uri) hfull ?_ ?_
  · intro a _
    exact (sends_sendRemoval _ a).andThen fun _ _ => sends_reload _ t t.removal
  · intro a a' ha hservices
    exact (sendRemoval_inStep hL hservices ha).andThen hservices (sends_sendRemoval _ a)
      (fun _ => sentTo_of_sendRemoval) (fun _ _ => sends_reload _ t t.removal)
      fun _ _ _ hnext => reload_inStep hL hnext t.removal trivial

section

variable {β : Type} {kind entity : String} {eid : Address} {result : β → Service.Result}
  {field : Json.Field Json.Doc (Option β)} {op : Rpc.Operation}

include hL hs listens in
theorem done_paired (body : Json)
    (agree : n.takes (s.posting? op (Rpc.input body)) ≠ [] →
      L.Agrees .change (n.reply 0) (n'.reply 0)) :
    Paired L.error L.Results
      (Service.ofDone (({ s with network := n }).call fun c => c.invokeUnit op body)).1
      (Service.ofDone (({ s' with network := n' }).call fun c => c.invokeUnit op body)).1 := by
  rw [Service.ofDone_eq, Service.ofDone_eq]
  have hcall := call_paired hL hs listens (P := fun _ _ => True)
    (fun c => c.invokeUnit_fst op body n) (fun c => c.invokeUnit_fst op body n') (fun c => rfl)
    (fun c => toOption_map _ _) fun heard url => (agree heard url).map fun _ _ _ => trivial
  exact hcall.map fun _ _ _ => .done

include hL hs listens in
theorem found_paired {R : β → β → Prop} (wire : Json)
    (like : ∀ b b', R b b' → L.Results (result b) (result b'))
    (agree : n.takes (s.posting? op (Rpc.eidInput wire)) ≠ [] → ∀ url, Paired L.rpcError
      (fun o o' => Option.Rel R (o.getD none) (o'.getD none))
      ((n.reply 0).posted (Rpc.Client.readFound kind field) url)
      ((n'.reply 0).posted (Rpc.Client.readFound kind field) url)) :
    Paired L.error L.Results
      (Service.ofFound entity eid result
        (({ s with network := n }).call fun c => c.lookup op wire kind field)).1
      (Service.ofFound entity eid result
        (({ s' with network := n' }).call fun c => c.lookup op wire kind field)).1 := by
  rw [Service.ofFound_eq, Service.ofFound_eq]
  have hcall := call_paired hL hs listens (P := Option.Rel R)
    (fun c => c.lookup_fst op wire kind field n) (fun c => c.lookup_fst op wire kind field n')
    (fun c => rfl) (fun c => toOption_map _ _) fun heard url => (agree heard url).map fun _ _ => id
  refine hcall.bind fun o o' ho => ?_
  cases ho with
  | none => exact .error (hL.error_refl _)
  | some hb => exact .ok (like _ _ hb)

end

include hL hs listens in
theorem dispatch_paired (c : Command)
    (agree : n.takes (s.commanding? c) ≠ [] → L.Agrees c.use (n.reply 0) (n'.reply 0)) :
    Paired L.error L.Results (({ s with network := n }).dispatch c).1
      (({ s' with network := n' }).dispatch c).1 := by
  cases c with
  | getKey r =>
    exact found_paired hL hs listens (R := fun k k' => ∀ eid,
      L.row .keys (Service.foundKey eid k) (Service.foundKey eid k')) r.eid.toWire
      (fun _ _ hk => .key (hk r.eid)) agree
  | getMapping r =>
    exact found_paired hL hs listens (R := fun m m' => ∀ eid,
      L.row .mappings (Service.foundMapping eid m) (Service.foundMapping eid m')) r.eid.toWire
      (fun _ _ hm => .mapping (hm r.eid)) agree
  | removeKey r | removeMapping r => exact done_paired hL hs listens _ agree
  | addKey r | updateKey r => exact done_paired hL hs listens _ agree
  | addMapping r | updateMapping r => exact done_paired hL hs listens _ agree

def commanded (s : Service) (c : Command) : Service.Outcome Service.Result × Service :=
  match s.dispatch c with
  | (.error e, s) => (.error (e.asOperationError c.operation.name),
    s.note c.topic.shelf c.operation (.error (e.asOperationError c.operation.name).message))
  | (.ok r, s) => (.ok r, s)

def settle (s : Service) (c : Command) : Service :=
  if c.operation.isWrite then s.reload c.topic.shelf c.operation
  else s.note c.topic.shelf c.operation (.ok ())

def settleUses (c : Command) : List Use := if c.operation.isWrite then [.database] else []

theorem execute_eq (s : Service) (c : Command) :
    s.execute c = Service.andThen (commanded s c) fun r s => (.ok r, settle s c) := by
  rw [Service.execute_eq, Service.executeOn, commanded]
  rcases s.dispatch c with ⟨e | r, s⟩ <;> rfl

theorem commanded_cases (s : Service) (c : Command) :
    (∃ e, (s.dispatch c).1 = .error e ∧
      commanded s c = (.error (e.asOperationError c.operation.name),
        s.put c.topic (s.network.after (s.network.takes (s.commanding? c)))
          ((c.topic.shelf.get s).record c.operation.name
            (.error (e.asOperationError c.operation.name).message)))) ∨
    ∃ r, (s.dispatch c).1 = .ok r ∧ commanded s c = (.ok r,
      s.put c.topic (s.network.after (s.network.takes (s.commanding? c)))
        (c.topic.shelf.get s)) := by
  rw [commanded, Service.dispatch_self]
  cases (s.dispatch c).1 with
  | error e => exact .inl ⟨e, rfl, by dsimp only; rw [Service.note_put]⟩
  | ok r => exact .inr ⟨r, rfl, rfl⟩

theorem network_commanded (s : Service) (c : Command) :
    (commanded s c).2.network = s.network.after (s.network.takes (s.commanding? c)) := by
  rcases commanded_cases s c with ⟨e, -, h⟩ | ⟨r, -, h⟩ <;> rw [h, Service.network_put]

theorem sends_commanded (s : Service) (c : Command) :
    Service.Sends [c.use] s (commanded s c).2 :=
  Service.sends_of_takes (network_commanded s c) _

theorem sentTo_of_commanded {c : Command} {r : Service.Result} (h : (commanded s c).1 = .ok r) :
    s.sentTo (commanded s c).2 = 1 := by
  rcases commanded_cases s c with ⟨e, -, hcommanded⟩ | ⟨r, hdispatch, -⟩
  · rw [hcommanded] at h
    cases h
  · exact Service.sentTo_of_takes (network_commanded s c) (Service.dispatch_eq_ok.1 hdispatch).1

include hL hs in
theorem commanded_inStep (c : Command) :
    L.InStep c.topic [c.use] L.Results s s' (commanded s c) (commanded s' c) := by
  intro agree
  have hsent := posting_twins hs hs.listens c.operation (hL.body_refl (Rpc.input c.posted))
  have htable := hs.tables c.topic
  have hdispatch : Paired L.error L.Results (s.dispatch c).1 (s'.dispatch c).1 :=
    dispatch_paired hL hs hs.listens c fun heard => agree.agrees
      (Service.sentTo_eq (network_commanded s c) ▸ List.length_pos_iff.2 heard) rfl
  rcases commanded_cases s c with ⟨e, hx, h⟩ | ⟨r, hx, h⟩ <;>
    rcases commanded_cases s' c with ⟨e', hx', h'⟩ | ⟨r', hx', h'⟩ <;>
    rw [hx, hx'] at hdispatch <;> cases hdispatch
  · rename_i he
    have hlike := hL.error_operation c.operation.name he
    rw [h, h']
    exact .mk hsent (.error hlike) (htable.refused c.operation.name hlike)
  · rename_i hr
    rw [h, h']
    exact .mk hsent (.ok hr) htable

theorem note_eq (s : Service) (t : Topic) (op : Rpc.Operation) (outcome : Except String Unit) :
    s.note t.shelf op outcome =
      s.put t (s.network.after []) ((t.shelf.get s).record op.name outcome) := by
  have h := Service.note_put (s := s) (t := t) (n := s.network) (T := t.shelf.get s) op outcome
  rwa [Service.put_self, ← s.network.after_nil] at h

theorem sends_settle (s : Service) (c : Command) :
    Service.Sends (settleUses c) s (settle s c) := by
  rw [settle, settleUses]
  split_ifs
  · exact sends_reload s c.topic c.operation
  · rw [note_eq]
    exact ⟨[], Service.network_put, Nat.le_refl 0⟩

include hL hs in
theorem settle_inStep (c : Command) {α β : Type} {P : α → β → Prop} {a : α} {b : β} (hab : P a b) :
    L.InStep c.topic (settleUses c) P s s' (.ok a, settle s c) (.ok b, settle s' c) := by
  rw [settle, settle, settleUses]
  split_ifs
  · exact reload_inStep hL hs c.operation hab
  · intro _
    rw [note_eq, note_eq]
    exact .mk .nil (.ok hab) ((hs.tables c.topic).succeeded c.operation.name)

include hL hs in
theorem execute_inStep (c : Command) :
    L.InStep c.topic (c.use :: settleUses c) L.Results s s' (s.execute c) (s'.execute c) := by
  rw [execute_eq, execute_eq]
  exact (commanded_inStep hL hs c).andThen hs (sends_commanded s c)
    (fun _ => sentTo_of_commanded) (fun _ _ => sends_settle _ c)
    fun _ _ hr hnext => settle_inStep hL hnext c hr

theorem sends_execute (s : Service) (c : Command) :
    Service.Sends (c.use :: settleUses c) s (s.execute c).2 := by
  rw [execute_eq]
  exact (sends_commanded s c).andThen fun _ _ => sends_settle _ c

end Likeness

end EidMap
