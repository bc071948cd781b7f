import EidMap.Proofs.Rpc.Refusal
import EidMap.Proofs.Service.Deletion
import EidMap.Proofs.Service.Execution
import EidMap.Proofs.Service.Session

/-!
# What a store refuses is told in full

Whatever a store says of a request that it refuses reaches the caller, and the banner of the table
that the call is about, as a failed load or as a failed operation. A load that follows a change is
told by the banner alone: the change was made.
-/

namespace EidMap.Service

open Rpc (Reports)

inductive Failing
  | load (table : String)
  | operation (op : Rpc.Operation)

namespace Failing

def error (message : String) : Failing → ServiceError
  | load table => .loadFailed table message
  | operation op => .operationFailed op.name message

def banner (message : String) : Failing → Status
  | load _ => .loadError message
  | operation op => .operationFailed op.name message

end Failing

variable {s : Service} {t : Topic} {uri : String} {status : Nat} {path body : String}
  {messages : List String}

theorem load_of_refused {n : Rpc.Network} (heard : n.takes s.reading? ≠ [])
    (answered : n.reply 0 = .answer status body) (failed : Rpc.isSuccess status = false)
    (reports : Reports path status body (.refused status messages)) :
    s.load n = .error (.api (String.intercalate ", " messages) (some status)) := by
  obtain ⟨q, hq, -, hexchange⟩ := reports.exists_exchange failed heard answered
  rw [load_of_error hq hexchange]
  rfl

theorem load_after_of_refused (rs : List Rpc.Request) (heard : s.network.takes s.reading? ≠ [])
    (answered : s.network.reply rs.length = .answer status body)
    (failed : Rpc.isSuccess status = false)
    (reports : Reports path status body (.refused status messages)) :
    s.load (s.network.after rs) =
      .error (.api (String.intercalate ", " messages) (some status)) := by
  refine load_of_refused ?_ ?_ failed reports
  · rwa [Rpc.Network.takes_after]
  · rwa [Rpc.Network.reply_after, Nat.add_zero]

/-- The calls that load a table before all else. -/
inductive Loads (t : Topic) : Call → Prop
  | refresh : Loads t (.refresh t)
  | lookup (uri : String) : Loads t (.lookup t uri)
  | delete (uri : String) : Loads t (.delete t uri)

theorem Loads.of_not_load {c : Call} (h : Loads t c) {e : ServiceError}
    (load : s.load s.network = .error e) :
    (s.perform c).1 = .error (e.asLoadError (t.shelf.get s).name) ∧
      (t.shelf.get (s.perform c).2).status =
        .loadError (e.asLoadError (t.shelf.get s).name).message := by
  cases h with
  | refresh =>
    have hrefresh := refresh_of_not_load (T := t.shelf.get s) load
    rw [put_self] at hrefresh
    rw [perform_refresh, hrefresh, get_put]
    exact ⟨rfl, Table.status_failed _ _⟩
  | lookup uri =>
    have hlookup := lookup_of_not_load (T := t.shelf.get s) load uri
    rw [put_self] at hlookup
    rw [perform_lookup, hlookup, get_put]
    exact ⟨rfl, Table.status_failed _ _⟩
  | delete uri =>
    obtain ⟨sent, r, T, hcourse, hdelete⟩ := course_delete s t uri
    obtain ⟨-, hr, hstatus, -⟩ := hcourse.of_not_load load
    rw [perform_delete, hdelete, hr, get_put]
    exact ⟨rfl, hstatus⟩

theorem Course.of_refused_reload {sent : List Rpc.Request} {T : Table t.Row}
    (h : Course s t uri sent (.ok ()) T) (answered : s.network.reply 2 = .answer status body)
    (failed : Rpc.isSuccess status = false)
    (reports : Reports path status body (.refused status messages)) :
    T.status = .loadError (ServiceError.loadFailed (t.shelf.get s).name
      (String.intercalate ", " messages)).message := by
  cases h with
  | @unreloaded get post d a e reading load found posting posted accepted reload =>
    have hload := load_after_of_refused [get.received, post.received]
      (load_eq_ok.1 load).1 answered failed reports
    cases reload.symm.trans hload
    exact Table.status_failed _ _
  | @done get post d d' a reading load found posting posted accepted reload =>
    have hload := load_after_of_refused [get.received, post.received]
      (load_eq_ok.1 load).1 answered failed reports
    cases reload.symm.trans hload

theorem delete_of_refused {d : Stored.Database} {a : t.Row} (load : s.load s.network = .ok d)
    (found : t.first? uri d = some a)
    (heard : s.network.takes (s.posting? t.removal (t.shelf.removal a).body) ≠ [])
    (answered : s.network.reply 1 = .answer status body) (failed : Rpc.isSuccess status = false)
    (reports : Reports path status body (.refused status messages)) :
    (s.delete t.shelf uri).1 =
      .error (.operationFailed t.removal.name (String.intercalate ", " messages)) := by
  obtain ⟨sent, r, T, hcourse, hdelete⟩ := course_delete s t uri
  have haccepted : ¬(s.network.reply 1).Accepts := by
    rw [answered]
    rintro ⟨success, -⟩
    rw [failed] at success
    cases success
  rw [hdelete]
  cases hcourse with
  | unloaded load' => cases load.symm.trans load'
  | absent _ load' missing =>
    cases load.symm.trans load'
    cases missing.symm.trans found
  | @refused get d' a' e _ load' found' post =>
    cases load.symm.trans load'
    cases found.symm.trans found'
    have hheard : (s.network.after [get.received]).takes
        (s.posting? t.removal (t.shelf.removal a).body) ≠ [] := by
      rwa [Rpc.Network.takes_after]
    have hanswered : (s.network.after [get.received]).reply 0 = .answer status body := by
      rw [Rpc.Network.reply_after]
      exact answered
    obtain ⟨q, hq, -, hexchange⟩ := reports.exists_exchange failed hheard hanswered
    rw [post_of_error hq hexchange] at post
    cases post
    rfl
  | unreloaded _ _ _ _ _ accepted | done _ _ _ _ _ accepted => exact absurd accepted haccepted

theorem execute_of_refused {c : Command} (heard : s.network.takes (s.commanding? c) ≠ [])
    (answered : s.network.reply 0 = .answer status body) (failed : Rpc.isSuccess status = false)
    (reports : Reports path status body (.refused status messages)) :
    (s.execute c).1 =
      .error (.operationFailed c.operation.name (String.intercalate ", " messages)) := by
  obtain ⟨q, hq, -, hexchange⟩ := reports.exists_exchange failed heard answered
  have hdispatch := dispatch_of_error hq hexchange
  obtain ⟨sent, r, T, hway, hexecute⟩ := way_execute s c
  rw [hexecute, hway.returned, hdispatch]
  rfl

/-- A reply of the store to a call about a topic, and what fails where the reply is a refusal. A
removal is asked for where a load found the row. -/
inductive Meets (s : Service) (reply : Rpc.Reply) : Call → Topic → Failing → Prop
  | load {c : Call} {t : Topic} (loads : Loads t c) (heard : s.network.takes s.reading? ≠ [])
    (answered : s.network.reply 0 = reply) : Meets s reply c t (.load (t.shelf.get s).name)
  | removal {t : Topic} {uri : String} {d : Stored.Database} {a : t.Row}
    (load : s.load s.network = .ok d) (found : t.first? uri d = some a)
    (heard : s.network.takes (s.posting? t.removal (t.shelf.removal a).body) ≠ [])
    (answered : s.network.reply 1 = reply) : Meets s reply (.delete t uri) t (.operation t.removal)
  | command {c : Command} (heard : s.network.takes (s.commanding? c) ≠ [])
    (answered : s.network.reply 0 = reply) :
    Meets s reply (.execute c) c.topic (.operation c.operation)

theorem Meets.perform {c : Call} {f : Failing} (h : Meets s (.answer status body) c t f)
    (failed : Rpc.isSuccess status = false)
    (reports : Reports path status body (.refused status messages)) :
    ∃ e, (s.perform c).1 = .error e ∧ e = f.error (String.intercalate ", " messages) ∧
      (t.shelf.get (s.perform c).2).status = f.banner e.message := by
  cases h with
  | load loads heard answered =>
    obtain ⟨hresult, hstatus⟩ :=
      loads.of_not_load (load_of_refused heard answered failed reports)
    exact ⟨_, hresult, rfl, hstatus⟩
  | @removal t uri d a load found heard answered =>
    have hresult := delete_of_refused load found heard answered failed reports
    obtain ⟨sent, hdeletion⟩ := deletion_delete s t uri
    refine ⟨_, ?_, rfl, ?_⟩
    · rw [perform_delete, hresult]
      rfl
    · rw [perform_delete]
      exact (hdeletion.refused d a _ load found hresult).1
  | @command c heard answered =>
    have hresult := execute_of_refused heard answered failed reports
    obtain ⟨sent, r, T, hway, hexecute⟩ := way_execute s c
    have hr : r = (s.execute c).1 := by rw [hexecute]
    have hperform : s.perform (.execute c) =
        ((s.execute c).1.map .executed, (s.execute c).2) := answerWith_eq _ _
    refine ⟨_, ?_, rfl, ?_⟩
    · rw [hperform, hresult]
      rfl
    · rw [hperform, hexecute, get_put]
      exact (hway.of_error (hr.trans hresult)).1

/-- A reply of the store to the load that follows a change, where the change was accepted. -/
inductive MeetsAfter (s : Service) (reply : Rpc.Reply) : Call → Topic → Prop
  | removal {t : Topic} {uri : String} (removed : (s.delete t.shelf uri).1 = .ok ())
    (answered : s.network.reply 2 = reply) : MeetsAfter s reply (.delete t uri) t
  | command {c : Command} {x : Result} (write : c.operation.isWrite = true)
    (changed : (s.execute c).1 = .ok x) (heard : s.network.takes s.reading? ≠ [])
    (answered : s.network.reply 1 = reply) : MeetsAfter s reply (.execute c) c.topic

theorem MeetsAfter.perform {c : Call} (h : MeetsAfter s (.answer status body) c t)
    (failed : Rpc.isSuccess status = false)
    (reports : Reports path status body (.refused status messages)) :
    (∃ a, (s.perform c).1 = .ok a) ∧ (t.shelf.get (s.perform c).2).status =
      .loadError (ServiceError.loadFailed (t.shelf.get s).name
        (String.intercalate ", " messages)).message := by
  cases h with
  | @removal t uri removed answered =>
    obtain ⟨sent, r, T, hcourse, hdelete⟩ := course_delete s t uri
    rw [hdelete] at removed
    cases removed
    rw [perform_delete, hdelete, get_put]
    exact ⟨⟨_, rfl⟩, hcourse.of_refused_reload answered failed reports⟩
  | @command c x write changed heard answered =>
    obtain ⟨sent, r, T, hway, hexecute⟩ := way_execute s c
    have hperform : s.perform (.execute c) =
        ((s.execute c).1.map .executed, (s.execute c).2) := answerWith_eq _ _
    rw [hexecute] at changed hperform
    cases changed
    obtain ⟨q, -, hq⟩ :=
      Rpc.Network.exists_of_takes_ne_nil (dispatch_eq_ok.1 (hway.eq_ok.1 rfl)).1
    have hload := load_after_of_refused (s.network.takes (s.commanding? c)) heard
      (by rw [hq]; exact answered) failed reports
    rw [hperform, get_put]
    exact ⟨⟨_, rfl⟩, (hway.of_not_load rfl write hload).1⟩

/-- An answer that is no success is told in full. Every call of a client reports it by its status
and by the messages of its error document; a refusal reaches whoever called the service, and the
banner of the table, with all the messages; where a change was accepted and the load after it is
refused, the banner has them alone. A body that spells an error document is one, and its messages
are those of its entries in order. -/
theorem refusals_surface {status : Nat} (failed : Rpc.isSuccess status = false) (body : String) :
    (∀ (c : Rpc.Client) (n : Rpc.Network) (k : Rpc.Client.Call) (r : Rpc.Request),
      n.takes (k.request? c) = [r] → n.reply 0 = .answer status body →
      ∃ e, Reports r.url.pathText status body e ∧ (k.perform c n).1 = k.told e) ∧
    (∀ (s : Service) (c : Call) (t : Topic) (f : Failing), Meets s (.answer status body) c t f →
      ∀ path messages, Reports path status body (.refused status messages) → messages ≠ [] ∧
        ∃ e, (s.perform c).1 = .error e ∧ e = f.error (String.intercalate ", " messages) ∧
          (t.shelf.get (s.perform c).2).status = f.banner e.message) ∧
    (∀ (s : Service) (c : Call) (t : Topic), MeetsAfter s (.answer status body) c t →
      ∀ path messages, Reports path status body (.refused status messages) →
        (∃ a, (s.perform c).1 = .ok a) ∧ (t.shelf.get (s.perform c).2).status =
          .loadError (ServiceError.loadFailed (t.shelf.get s).name
            (String.intercalate ", " messages)).message) ∧
    ∀ v entries, Rpc.Document v entries → Json.Spells body v → Rpc.IsErrorDocument body ∧
      Rpc.documentTexts (Json.Doc.ofText body).1 =
        entries.filterMap fun e => e.message <|> e.tag := by
  refine ⟨fun c n k r heard answered => ?_, fun s c t f meets path messages reports => ?_,
    fun s c t meets path messages reports => meets.perform failed reports,
    fun v entries document spells => document.texts spells⟩
  · obtain ⟨url, hpath, hperform⟩ := Rpc.Client.Call.perform_of_takes heard
    obtain ⟨e, hreports, hresult⟩ := Rpc.reports_of_unsuccessful failed body url
    refine ⟨e, hpath ▸ hreports, hperform e ?_⟩
    rw [answered, hresult]
  · exact ⟨reports.messages_ne_nil, meets.perform failed reports⟩

def lockedDocument : Json :=
  .object [("errors", .object [("error", .array [
    .object [("error-type", .string "application"), ("error-message", .string "in use")],
    .object [("error-tag", .string "lock-denied")], .object []])])]

theorem document_locked :
    Rpc.Document lockedDocument
      [⟨none, some "in use"⟩, ⟨some "lock-denied", none⟩, ⟨none, none⟩] := by
  refine .object (by decide) (by decide) rfl rfl (.cons ?_ (.cons ?_ (.cons ?_ .nil)))
  · exact .object (by decide) (.absent rfl) (.text rfl)
  · exact .object (by decide) (.text rfl) (.absent rfl)
  · exact .object (by decide) (.absent rfl) (.absent rfl)

theorem natural_locked : lockedDocument.Natural := by
  refine .object (List.forall_mem_singleton.2 (.object (List.forall_mem_singleton.2 (.array ?_))))
  simp only [List.forall_mem_cons, List.not_mem_nil, false_implies, implies_true, and_true]
  refine ⟨.object ?_, .object ?_, .object fun f hf => absurd hf List.not_mem_nil⟩
  · exact List.forall_mem_cons.2 ⟨.string _, List.forall_mem_singleton.2 (.string _)⟩
  · exact List.forall_mem_singleton.2 (.string _)

theorem locked_load_surfaces :
    ((scripted [.answer 409 lockedDocument.compact]).perform (.refresh .mappings)).1 =
        .error (.loadFailed "mappings" "in use, lock-denied") ∧
      ((Topic.shelf .mappings).get
        ((scripted [.answer 409 lockedDocument.compact]).perform (.refresh .mappings)).2).status =
        .loadError "Failed to load mappings: in use, lock-denied" := by
  obtain ⟨-, hservice, -, hdocument⟩ := @refusals_surface 409 rfl lockedDocument.compact
  obtain ⟨his, htexts⟩ := hdocument _ _ document_locked (Json.spells_compact natural_locked)
  have hexplains : Rpc.Explains lockedDocument.compact ["in use", "lock-denied"] :=
    ⟨his, htexts, by decide⟩
  have hmeets : Meets (scripted [.answer 409 lockedDocument.compact])
      (.answer 409 lockedDocument.compact) (.refresh .mappings) .mappings (.load "mappings") :=
    .load .refresh (scripted_heard _) rfl
  obtain ⟨-, e, he, rfl, hbanner⟩ := hservice _ _ _ _ hmeets "" _ (.explained (by decide) hexplains)
  exact ⟨he, hbanner⟩

end EidMap.Service
