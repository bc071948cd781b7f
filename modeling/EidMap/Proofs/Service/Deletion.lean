import EidMap.Proofs.Service.Refresh

/-!
# Removing a row

A removal loads the table, posts the EID of the first row with the identifier, and loads the table
again. It takes one of five courses, told apart by the step that fails. Main statement: what is
sent, the result, the banner and the rows of every removal, for any state and any replies.
-/

namespace EidMap

open Json (Doc)
open Stored (eidOf?)

namespace Service

variable {s : Service} {t : Topic} {uri : String}

/-- The requests of a removal that are received, its result and the table it leaves, by the step
that fails. -/
inductive Course (s : Service) (t : Topic) (uri : String) :
    List Rpc.Request → Outcome Unit → Table t.Row → Prop
  | unloaded {e : ServiceError} (load : s.load s.network = .error e) :
    Course s t uri (s.network.takes s.reading?) (.error (e.asLoadError (t.shelf.get s).name))
      ((t.shelf.get s).failed (e.asLoadError (t.shelf.get s).name).message)
  | absent {get : Rpc.Request} {d : Stored.Database} (reading : s.reading? = some get)
    (load : s.load s.network = .ok d) (missing : t.first? uri d = none) :
    Course s t uri [get.received] (.error (.notFound t.shelf.entity uri))
      ((t.shelf.get s).shown (t.shelf.rows d))
  | refused {get : Rpc.Request} {d : Stored.Database} {a : t.Row} {e : ServiceError}
    (reading : s.reading? = some get) (load : s.load s.network = .ok d)
    (found : t.first? uri d = some a)
    (post : s.post (s.network.after [get.received]) t.removal (t.shelf.removal a).body = .error e) :
    Course s t uri
      (get.received :: s.network.takes (s.posting? t.removal (t.shelf.removal a).body))
      (.error (e.asOperationError t.removal.name))
      (((t.shelf.get s).shown (t.shelf.rows d)).record t.removal.name
        (.error (e.asOperationError t.removal.name).message))
  | unreloaded {get post : Rpc.Request} {d : Stored.Database} {a : t.Row} {e : ServiceError}
    (reading : s.reading? = some get) (load : s.load s.network = .ok d)
    (found : t.first? uri d = some a)
    (posting : s.posting? t.removal (t.shelf.removal a).body = some post)
    (posted : s.network.takes (s.posting? t.removal (t.shelf.removal a).body) = [post.received])
    (accepted : (s.network.reply 1).Accepts)
    (reload : s.load (s.network.after [get.received, post.received]) = .error e) :
    Course s t uri [get.received, post.received, get.received] (.ok ())
      (((t.shelf.get s).shown (t.shelf.rows d)).failed
        (e.asLoadError (t.shelf.get s).name).message)
  | done {get post : Rpc.Request} {d d' : Stored.Database} {a : t.Row}
    (reading : s.reading? = some get) (load : s.load s.network = .ok d)
    (found : t.first? uri d = some a)
    (posting : s.posting? t.removal (t.shelf.removal a).body = some post)
    (posted : s.network.takes (s.posting? t.removal (t.shelf.removal a).body) = [post.received])
    (accepted : (s.network.reply 1).Accepts)
    (reload : s.load (s.network.after [get.received, post.received]) = .ok d') :
    Course s t uri [get.received, post.received, get.received] (.ok ())
      ((((t.shelf.get s).shown (t.shelf.rows d)).shown (t.shelf.rows d')).record
        t.removal.name (.ok ()))

theorem load_after_eq_ok {n : Rpc.Network} {d d' : Stored.Database} (h : s.load n = .ok d)
    (rs : List Rpc.Request) : s.load (n.after rs) = .ok d' ↔ (n.reply rs.length).Gives d' := by
  rw [load_eq_ok, Rpc.Network.takes_after, Rpc.Network.reply_after, Nat.add_zero,
    and_iff_right (load_eq_ok.1 h).1]

theorem course_reload {get post : Rpc.Request} {d : Stored.Database} {a : t.Row}
    (reading : s.reading? = some get) (load : s.load s.network = .ok d)
    (found : t.first? uri d = some a)
    (posting : s.posting? t.removal (t.shelf.removal a).body = some post)
    (posted : s.network.takes (s.posting? t.removal (t.shelf.removal a).body) = [post.received])
    (accepted : (s.network.reply 1).Accepts)
    (heard : s.network.takes s.reading? = [get.received]) :
    ∃ T, Course s t uri [get.received, post.received, get.received] (.ok ()) T ∧
      (s.put t (s.network.after [get.received, post.received])
        ((t.shelf.get s).shown (t.shelf.rows d))).reload t.shelf t.removal =
        s.put t (s.network.after [get.received, post.received, get.received]) T := by
  have htakes : (s.network.after [get.received, post.received]).takes s.reading? =
      [get.received] := by
    rw [Rpc.Network.takes_after, heard]
  cases hreload : s.load (s.network.after [get.received, post.received]) with
  | error e =>
    refine ⟨_, .unreloaded reading load found posting posted accepted hreload, ?_⟩
    rw [reload_of_not_load hreload, htakes, Rpc.Network.after_after, Table.name_shown]
    rfl
  | ok d' =>
    refine ⟨_, .done reading load found posting posted accepted hreload, ?_⟩
    rw [reload_of_load hreload, htakes, Rpc.Network.after_after]
    rfl

theorem course_delete (s : Service) (t : Topic) (uri : String) :
    ∃ sent r T, Course s t uri sent r T ∧
      s.delete t.shelf uri = (r, s.put t (s.network.after sent) T) := by
  have hself := put_self s t
  rw [delete]
  -- the course forks where the code does: at the load, the row, the post and the reload
  cases hload : s.load s.network with
  | error e =>
    have hlookup := lookup_of_not_load (T := t.shelf.get s) hload uri
    rw [hself] at hlookup
    rw [hlookup]
    exact ⟨_, _, _, .unloaded hload, rfl⟩
  | ok d =>
    obtain ⟨get, hget, htakes⟩ := Rpc.Network.exists_of_takes_ne_nil (load_eq_ok.1 hload).1
    have hlookup := lookup_of_load (T := t.shelf.get s) hload uri
    rw [hself, htakes] at hlookup
    rw [hlookup]
    cases hfound : t.first? uri d with
    | none => exact ⟨_, _, _, .absent hget hload hfound, rfl⟩
    | some a =>
      dsimp only
      rw [t.operation_removal a]
      cases hpost : s.post (s.network.after [get.received]) t.removal
          (t.shelf.removal a).body with
      | error e =>
        rw [sendRemoval_of_not_post hpost, Rpc.Network.after_after, Rpc.Network.takes_after]
        exact ⟨_, _, _, .refused hget hload hfound hpost, rfl⟩
      | ok _ =>
        obtain ⟨post, hposting, hposted⟩ :=
          Rpc.Network.exists_of_takes_ne_nil (post_eq_ok.1 hpost).1
        have haccepted : (s.network.reply 1).Accepts := by
          simpa using (post_eq_ok.1 hpost).2
        obtain ⟨T, hcourse, hreload⟩ :=
          course_reload hget hload hfound hposting hposted haccepted htakes
        rw [sendRemoval_of_post hpost, hposted, Rpc.Network.after_after]
        exact ⟨_, _, T, hcourse, congrArg (Prod.mk _) hreload⟩

namespace Course

variable {sent : List Rpc.Request} {r : Outcome Unit} {T : Table t.Row}

theorem length_le (h : Course s t uri sent r T) : sent.length ≤ 3 := by
  cases h with
  | unloaded load =>
    have hlength := s.network.length_takes_le s.reading?
    omega
  | absent reading load missing => exact Nat.le_of_ble_eq_true rfl
  | @refused get d a e reading load found post =>
    have hlength := s.network.length_takes_le (s.posting? t.removal (t.shelf.removal a).body)
    rw [List.length_cons]
    omega
  | unreloaded | done => exact Nat.le_refl 3

theorem loads (h : Course s t uri sent r T) (d : Stored.Database) :
    s.load s.network = .ok d ↔ 1 ≤ sent.length ∧ (s.network.reply 0).Gives d := by
  rw [load_eq_ok]
  refine and_congr_left fun _ => ?_
  cases h with
  | unloaded load => exact List.length_pos_iff.symm
  | absent _ load | refused _ load | unreloaded _ load | done _ load =>
    exact iff_of_true (load_eq_ok.1 load).1 (Nat.le_add_left 1 _)

theorem reads (h : Course s t uri sent r T) {i : Nat} {q : Rpc.Request} (hi : i ≠ 1)
    (hq : sent[i]? = some q) : ∃ get, s.reading? = some get ∧ q = get.received := by
  cases h with
  | unloaded load => exact Rpc.Network.mem_takes (List.mem_of_getElem? hq)
  | @absent get d reading load missing =>
    exact ⟨get, reading, List.mem_singleton.1 (List.mem_of_getElem? hq)⟩
  | @refused get d a e reading load found post =>
    match i, hi with
    | 0, _ => exact ⟨get, reading, (Option.some.inj hq).symm⟩
    | i + 2, _ =>
      have hlength := s.network.length_takes_le (s.posting? t.removal (t.shelf.removal a).body)
      have hlt := (List.getElem?_eq_some_iff.1 hq).1
      rw [List.length_cons] at hlt
      omega
  | @unreloaded get post _ _ _ reading | @done get post _ _ _ reading =>
    match i, hi with
    | 0, _ | 2, _ => exact ⟨get, reading, (Option.some.inj hq).symm⟩
    | i + 3, _ => cases hq

theorem exists_entry {n : Rpc.Network} {d : Stored.Database} {a : t.Row} (load : s.load n = .ok d)
    (found : t.first? uri d = some a) :
    ∃ status body entry eid, n.reply 0 = .answer status body ∧
      t.firstEntry? uri (Doc.ofText body).1 = some entry ∧ eidOf? t entry = some eid ∧
      (t.shelf.removal a).body = .object [("input", .object [("eid", eid)])] := by
  have hgives := (load_eq_ok.1 load).2
  generalize n.reply 0 = reply at hgives
  cases hgives with
  | none silent empty =>
    rw [empty, t.first?_empty] at found
    cases found
  | @document status body success read =>
    have hrel := t.rel_first? uri (Json.read_of_decodeText read)
    rw [found] at hrel
    generalize hentry : t.firstEntry? uri (Doc.ofText body).1 = entry? at hrel
    cases hrel with
    | @some entry _ hlists =>
      obtain ⟨-, eid, heid, hremoval⟩ := hlists
      exact ⟨status, body, entry, eid, rfl, hentry, heid, congrArg (·.body) hremoval⟩

theorem removes (h : Course s t uri sent r T) {q : Rpc.Request} (hq : sent[1]? = some q) :
    (∃ d, (s.network.reply 0).Gives d) ∧
      ∃ status body entry eid post, s.network.reply 0 = .answer status body ∧
        t.firstEntry? uri (Doc.ofText body).1 = some entry ∧ eidOf? t entry = some eid ∧
        s.posting? t.removal (.object [("input", .object [("eid", eid)])]) = some post ∧
        q = post.received := by
  have hrow : ∃ d a post, s.load s.network = .ok d ∧ t.first? uri d = some a ∧
      s.posting? t.removal (t.shelf.removal a).body = some post ∧ q = post.received := by
    cases h with
    | unloaded load =>
      have hlength := s.network.length_takes_le s.reading?
      have hlt := (List.getElem?_eq_some_iff.1 hq).1
      omega
    | absent => cases hq
    | @refused get d a e reading load found _ =>
      have hmem : q ∈ s.network.takes (s.posting? t.removal (t.shelf.removal a).body) :=
        List.mem_of_getElem? (i := 0) hq
      obtain ⟨post, hpost, hq⟩ := Rpc.Network.mem_takes hmem
      exact ⟨d, a, post, load, found, hpost, hq⟩
    | @unreloaded get post d a _ reading load found posting
    | @done get post d _ a reading load found posting =>
      exact ⟨d, a, post, load, found, posting, (Option.some.inj hq).symm⟩
  obtain ⟨d, a, post, load, found, posting, hq⟩ := hrow
  obtain ⟨status, body, entry, eid, hreply, hentry, heid, hbody⟩ := exists_entry load found
  exact ⟨⟨d, (load_eq_ok.1 load).2⟩, status, body, entry, eid, post, hreply, hentry, heid,
    hbody ▸ posting, hq⟩

theorem asks (h : Course s t uri sent r T) {i : Nat} {q : Rpc.Request} (hq : sent[i]? = some q) :
    (i ≠ 1 → q.AsksDatabase s.settings.url) ∧ (i = 1 → ∃ status body entry eid,
      s.network.reply 0 = .answer status body ∧
        t.firstEntry? uri (Doc.ofText body).1 = some entry ∧ eidOf? t entry = some eid ∧
        q.AsksOperation s.settings.url t.removal.name
          (.object [("input", .object [("eid", eid)])])) := by
  constructor
  · intro hi
    obtain ⟨get, reading, rfl⟩ := h.reads hi hq
    exact asksDatabase_of_reading? reading
  · rintro rfl
    obtain ⟨-, status, body, entry, eid, post, hreply, hentry, heid, posting, rfl⟩ := h.removes hq
    exact ⟨status, body, entry, eid, hreply, hentry, heid, asksOperation_of_posting? posting⟩

theorem connected (h : Course s t uri sent r T) (connects : s.Connects) :
    sent ≠ [] ∧ ∀ d a, s.load s.network = .ok d → t.first? uri d = some a → 2 ≤ sent.length := by
  have hreads := connects.reads
  cases h with
  | unloaded load => exact ⟨hreads, fun d a load' => by cases load'.symm.trans load⟩
  | absent _ load missing =>
    refine ⟨List.cons_ne_nil _ _, fun d a load' found => ?_⟩
    cases load.symm.trans load'
    cases missing.symm.trans found
  | @refused get d a e =>
    refine ⟨List.cons_ne_nil _ _, fun _ _ _ _ => ?_⟩
    have hposts := List.length_pos_iff.2 (connects.posts t.removal (t.shelf.removal a).body)
    rw [List.length_cons]
    omega
  | unreloaded | done => exact ⟨List.cons_ne_nil _ _, fun _ _ _ _ => Nat.le_add_left 2 1⟩

theorem posts (h : Course s t uri sent r T) {d : Stored.Database} {a : t.Row}
    (load : s.load s.network = .ok d) (found : t.first? uri d = some a) :
    ∃ rest, sent = s.network.takes s.reading? ++
      s.network.takes (s.posting? t.removal (t.shelf.removal a).body) ++ rest := by
  obtain ⟨get, hget, htakes⟩ := Rpc.Network.exists_of_takes_ne_nil (load_eq_ok.1 load).1
  rw [htakes]
  cases h with
  | unloaded load' =>
    cases load.symm.trans load'
  | absent _ load' missing =>
    cases load.symm.trans load'
    cases missing.symm.trans found
  | refused reading load' found' _ =>
    cases load.symm.trans load'
    cases hget.symm.trans reading
    cases found.symm.trans found'
    exact ⟨[], (List.append_nil _).symm⟩
  | unreloaded reading load' found' _ posted _ _ | done reading load' found' _ posted _ _ =>
    cases load.symm.trans load'
    cases hget.symm.trans reading
    cases found.symm.trans found'
    rw [posted]
    exact ⟨[get.received], rfl⟩

theorem returned (h : Course s t uri sent r T) :
    r = .ok () ↔ 2 ≤ sent.length ∧ (s.network.reply 1).Accepts := by
  cases h with
  | unloaded load =>
    have hlength := s.network.length_takes_le s.reading?
    exact ⟨nofun, fun h => by omega⟩
  | absent => exact ⟨nofun, fun h => absurd h.1 (Nat.not_succ_le_self 1)⟩
  | @refused get d a e reading load found post =>
    refine ⟨nofun, fun ⟨hsent, haccepts⟩ => ?_⟩
    -- a post that was received and accepted would not have failed
    have hok : s.post (s.network.after [get.received]) t.removal (t.shelf.removal a).body =
        .ok () := by
      rw [post_eq_ok, Rpc.Network.takes_after, Rpc.Network.reply_after]
      refine ⟨fun hnil => ?_, haccepts⟩
      rw [hnil] at hsent
      exact absurd hsent (Nat.not_succ_le_self 1)
    rw [hok] at post
    cases post
  | unreloaded reading load found posting posted accepted
  | done reading load found posting posted accepted =>
    exact ⟨fun _ => ⟨Nat.le_add_left 2 1, accepted⟩, fun _ => rfl⟩

theorem reloads (h : Course s t uri sent r T) : sent.length = 3 ↔ r = .ok () := by
  cases h with
  | unloaded load =>
    have hlength := s.network.length_takes_le s.reading?
    exact ⟨fun h => by omega, nofun⟩
  | absent => exact ⟨nofun, nofun⟩
  | @refused get d a e reading load found post =>
    have hlength := s.network.length_takes_le (s.posting? t.removal (t.shelf.removal a).body)
    rw [List.length_cons]
    exact ⟨fun h => by omega, nofun⟩
  | unreloaded | done => exact ⟨fun _ => rfl, fun _ => rfl⟩

theorem reloaded (h : Course s t uri sent r T) (accepted : r = .ok ()) (d : Stored.Database) :
    s.load (s.network.after (sent.take 2)) = .ok d ↔ (s.network.reply 2).Gives d := by
  cases h with
  | unloaded | absent | refused => cases accepted
  | unreloaded _ load | done _ load => exact load_after_eq_ok load _

theorem succeeded (h : Course s t uri sent r T) :
    T.status = .operationSucceeded t.removal.name ↔
      r = .ok () ∧ ∃ d, (s.network.reply 2).Gives d := by
  cases h with
  | unloaded | absent | refused => simp [Table.record]
  | unreloaded reading load found posting posted accepted reload =>
    have hgives : ¬∃ d, (s.network.reply 2).Gives d := by
      rintro ⟨d', hd'⟩
      rw [(load_after_eq_ok load _).2 hd'] at reload
      cases reload
    simp [hgives]
  | @done _ _ _ d' _ reading load found posting posted accepted reload =>
    have hgives := (load_after_eq_ok load _).1 reload
    exact ⟨fun _ => ⟨rfl, d', hgives⟩, fun _ => rfl⟩

theorem of_not_load (h : Course s t uri sent r T) {e : ServiceError}
    (load : s.load s.network = .error e) :
    sent.length ≤ 1 ∧ r = .error (e.asLoadError (t.shelf.get s).name) ∧
      T.status = .loadError (e.asLoadError (t.shelf.get s).name).message ∧
      T.items = (t.shelf.get s).items := by
  cases h with
  | unloaded load' =>
    cases load.symm.trans load'
    exact ⟨s.network.length_takes_le _, rfl, Table.status_failed _ _, Table.items_failed _ _⟩
  | absent _ load' | refused _ load' | unreloaded _ load' | done _ load' =>
    cases load.symm.trans load'

theorem of_missing (h : Course s t uri sent r T) {d : Stored.Database}
    (load : s.load s.network = .ok d) (missing : t.first? uri d = none) :
    sent.length = 1 ∧ r = .error (.notFound t.shelf.entity uri) ∧ T.status = .loaded ∧
      T.items = t.shelf.rows d := by
  cases h with
  | unloaded load' =>
    cases load.symm.trans load'
  | absent _ load' _ =>
    cases load.symm.trans load'
    exact ⟨rfl, rfl, Table.status_shown _ _, Table.items_shown _ _⟩
  | refused _ load' found | unreloaded _ load' found | done _ load' found =>
    cases load.symm.trans load'
    cases missing.symm.trans found

theorem of_found (h : Course s t uri sent r T) {d : Stored.Database} {a : t.Row} {e : ServiceError}
    (load : s.load s.network = .ok d) (found : t.first? uri d = some a) (failed : r = .error e) :
    T.status = .operationFailed t.removal.name e.message ∧ T.items = t.shelf.rows d := by
  cases h with
  | unloaded load' =>
    cases load.symm.trans load'
  | absent _ load' missing =>
    cases load.symm.trans load'
    cases missing.symm.trans found
  | refused _ load' _ _ =>
    cases load.symm.trans load'
    cases failed
    exact ⟨rfl, (Table.items_record _ _ _).trans (Table.items_shown _ _)⟩
  | unreloaded | done => cases failed

theorem of_not_reload (h : Course s t uri sent r T) {e : ServiceError} (accepted : r = .ok ())
    (reload : s.load (s.network.after (sent.take 2)) = .error e) :
    T.status = .loadError (e.asLoadError (t.shelf.get s).name).message := by
  cases h with
  | unloaded | absent | refused => cases accepted
  | unreloaded _ _ _ _ _ _ reload' =>
    rw [List.take_succ_cons, List.take_succ_cons, List.take_zero, reload'] at reload
    cases reload
    exact Table.status_failed _ _
  | done _ _ _ _ _ _ reload' =>
    rw [List.take_succ_cons, List.take_succ_cons, List.take_zero, reload'] at reload
    cases reload

end Course

/-- What a removal sends, returns and leaves. The requests that are received are a prefix of a
reading, a posting and a second reading. -/
structure Deletion (s : Service) (t : Topic) (uri : String) (sent : List Rpc.Request)
    (r : Outcome Unit) (s' : Service) : Prop where
  received : s'.network = s.network.after sent
  length_le : sent.length ≤ 3
  reads : ∀ i q, i ≠ 1 → sent[i]? = some q → ∃ get, s.reading? = some get ∧ q = get.received
  removes : ∀ q, sent[1]? = some q → (∃ d, (s.network.reply 0).Gives d) ∧
    ∃ status body entry eid post, s.network.reply 0 = .answer status body ∧
      t.firstEntry? uri (Doc.ofText body).1 = some entry ∧ eidOf? t entry = some eid ∧
      s.posting? t.removal (.object [("input", .object [("eid", eid)])]) = some post ∧
      q = post.received
  asks_database : ∀ i q, i ≠ 1 → sent[i]? = some q → q.AsksDatabase s.settings.url
  asks_removal : ∀ q, sent[1]? = some q → ∃ status body entry eid,
    s.network.reply 0 = .answer status body ∧
      t.firstEntry? uri (Doc.ofText body).1 = some entry ∧ eidOf? t entry = some eid ∧
      q.AsksOperation s.settings.url t.removal.name (.object [("input", .object [("eid", eid)])])
  connected : s.Connects →
    sent ≠ [] ∧ ∀ d a, s.load s.network = .ok d → t.first? uri d = some a → 2 ≤ sent.length
  posts : ∀ d a, s.load s.network = .ok d → t.first? uri d = some a → ∃ rest,
    sent = s.network.takes s.reading? ++
      s.network.takes (s.posting? t.removal (t.shelf.removal a).body) ++ rest
  returned : r = .ok () ↔ 2 ≤ sent.length ∧ (s.network.reply 1).Accepts
  reloads : sent.length = 3 ↔ r = .ok ()
  succeeded : (t.shelf.get s').status = .operationSucceeded t.removal.name ↔
    r = .ok () ∧ ∃ d, (s.network.reply 2).Gives d
  loads : ∀ d, s.load s.network = .ok d ↔ 1 ≤ sent.length ∧ (s.network.reply 0).Gives d
  reloaded : r = .ok () → ∀ d,
    s.load (s.network.after (sent.take 2)) = .ok d ↔ (s.network.reply 2).Gives d
  unloaded : ∀ e, s.load s.network = .error e → sent.length ≤ 1 ∧
    r = .error (e.asLoadError (t.shelf.get s).name) ∧
    (t.shelf.get s').status = .loadError (e.asLoadError (t.shelf.get s).name).message ∧
    (t.shelf.get s').items = (t.shelf.get s).items
  unreloaded : r = .ok () → ∀ e, s.load (s.network.after (sent.take 2)) = .error e →
    (t.shelf.get s').status = .loadError (e.asLoadError (t.shelf.get s).name).message
  refused : ∀ d a e, s.load s.network = .ok d → t.first? uri d = some a → r = .error e →
    (t.shelf.get s').status = .operationFailed t.removal.name e.message ∧
      (t.shelf.get s').items = t.shelf.rows d
  missing : ∀ d, s.load s.network = .ok d → t.first? uri d = none → sent.length = 1 ∧
    r = .error (.notFound t.shelf.entity uri) ∧ (t.shelf.get s').status = .loaded ∧
      (t.shelf.get s').items = t.shelf.rows d

/-- Every removal, in any state of the service and with any replies of the store. -/
theorem deletion_delete (s : Service) (t : Topic) (uri : String) :
    ∃ sent, Deletion s t uri sent (s.delete t.shelf uri).1 (s.delete t.shelf uri).2 := by
  obtain ⟨sent, r, T, hcourse, hdelete⟩ := course_delete s t uri
  rw [hdelete]
  have hget : t.shelf.get (s.put t (s.network.after sent) T) = T := get_put
  refine ⟨sent, network_put, hcourse.length_le, fun i q hi hq => hcourse.reads hi hq,
    fun q hq => hcourse.removes hq, fun i q hi hq => (hcourse.asks hq).1 hi,
    fun q hq => (hcourse.asks hq).2 rfl, hcourse.connected,
    fun d a hd ha => hcourse.posts hd ha, hcourse.returned,
    hcourse.reloads, ?_, hcourse.loads, fun hr => hcourse.reloaded hr, ?_, ?_, ?_, ?_⟩
  all_goals rw [hget]
  · exact hcourse.succeeded
  · exact fun e he => hcourse.of_not_load he
  · exact fun hr e he => hcourse.of_not_reload hr he
  · exact fun d a e hd ha hr => hcourse.of_found hd ha hr
  · exact fun d hd hmissing => hcourse.of_missing hd hmissing

end Service

end EidMap
