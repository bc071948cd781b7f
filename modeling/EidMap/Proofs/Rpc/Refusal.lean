import EidMap.Proofs.Json.Written
import EidMap.Proofs.Rpc.Calls

/-!
# What an answer that is no success says

The messages of an error document are read off its tree: for each entry its message, or its tag
where it has none. An answer without such messages is told by its status and by how its body
begins.
-/

namespace EidMap.Rpc

open Json (Doc Decoded Spells)

def entryText (d : Doc) : Option String :=
  (d.member? ["error-message"] 1).bind Doc.string? <|> (d.member? ["error-tag"] 0).bind Doc.string?

def documentTexts (d : Doc) : List String :=
  match (d.member? ["errors"] 0).bind (·.member? ["error"] 0) with
  | some list => list.elements.filterMap entryText
  | none => []

def IsErrorDocument (body : String) : Prop :=
  ∃ entries, Json.decodeText ErrorEntry.readDocument body = .ok entries

/-- The body is an error document that says something. -/
structure Explains (body : String) (messages : List String) : Prop where
  document : IsErrorDocument body
  texts : documentTexts (Doc.ofText body).1 = messages
  some : messages ≠ []

theorem string?_of_option_text {d : Doc} {o : Option String}
    (h : Json.option Json.text d = .ok o) : d.string? = o := by
  cases d with
  | null =>
    cases h
    rfl
  | string s =>
    cases h
    rfl
  | bool | number | array | object | faulty => cases h

theorem string?_of_optional {names : List String} {d : Doc} {p : Json.Parts Doc}
    (hp : Json.IsParts names d p) {name : String} {o : Option String}
    (h : p.get (Json.optional name Json.text) = .ok o) :
    (d.member? [name] (names.idxOf name)).bind Doc.string? = o := by
  rcases hp.get h with ⟨m, hm, hread⟩ | ⟨hm, habsent⟩
  · have hmember : d.member? [name] (names.idxOf name) = some m := hm
    rw [hmember]
    exact string?_of_option_text hread
  · have hmember : d.member? [name] (names.idxOf name) = none := hm
    rw [hmember]
    exact Option.some.inj habsent

theorem entryText_of_read {d : Doc} {e : ErrorEntry} (h : ErrorEntry.read d = .ok e) :
    entryText d = (e.message <|> e.tag) := by
  obtain ⟨p, hp, hbuild⟩ := Json.isParts_of_record h
  obtain ⟨tag, htag, hbuild⟩ := Json.bind_eq_ok.1 hbuild
  obtain ⟨message, hmessage, ⟨⟩⟩ := Json.bind_eq_ok.1 hbuild
  have htext := string?_of_optional hp hmessage
  have hword := string?_of_optional hp htag
  rw [entryText, ← htext, ← hword]
  rfl

theorem texts_of_forall₂ {ds : List Doc} {es : List ErrorEntry}
    (h : List.Forall₂ (fun d e => ErrorEntry.read d = .ok e) ds es) :
    ds.filterMap entryText = es.filterMap fun e => e.message <|> e.tag := by
  induction h with
  | nil => rfl
  | cons hd _ ih => rw [List.filterMap_cons, List.filterMap_cons, entryText_of_read hd, ih]

theorem documentTexts_of_read {d : Doc} {entries : List ErrorEntry}
    (h : ErrorEntry.readDocument d = .ok entries) :
    documentTexts d = entries.filterMap fun e => e.message <|> e.tag := by
  obtain ⟨p, hp, herrors⟩ := Json.isParts_of_record h
  obtain ⟨m, hm, hlist⟩ := hp.get_required herrors
  obtain ⟨p', hp', hentries⟩ := Json.isParts_of_record hlist
  have herrorsMember : d.member? ["errors"] 0 = some m := hm
  rw [documentTexts, herrorsMember, Option.bind_some]
  rcases hp'.get_defaulted hentries with ⟨list, hmember, hread⟩ | ⟨hmember, rfl⟩
  · have hlistMember : m.member? ["error"] 0 = some list := hmember
    rw [hlistMember]
    exact texts_of_forall₂ (Json.forall₂_of_list hread)
  · have hlistMember : m.member? ["error"] 0 = none := hmember
    rw [hlistMember]
    rfl

theorem errorMessages_of_document {body : String} (h : IsErrorDocument body) :
    errorMessages body = documentTexts (Doc.ofText body).1 := by
  obtain ⟨entries, hread⟩ := h
  rw [errorMessages, hread, documentTexts_of_read (Json.read_of_decodeText hread)]

theorem errorMessages_of_not_document {body : String} (h : ¬IsErrorDocument body) :
    errorMessages body = [] := by
  rw [errorMessages]
  cases hread : Json.decodeText ErrorEntry.readDocument body with
  | ok entries => exact absurd ⟨entries, hread⟩ h
  | error e => rfl

theorem explains_iff {body : String} {messages : List String} :
    Explains body messages ↔ errorMessages body = messages ∧ messages ≠ [] := by
  constructor
  · rintro ⟨hdocument, htexts, hsome⟩
    exact ⟨(errorMessages_of_document hdocument).trans htexts, hsome⟩
  · rintro ⟨hmessages, hsome⟩
    by_cases hdocument : IsErrorDocument body
    · exact ⟨hdocument, (errorMessages_of_document hdocument).symm.trans hmessages, hsome⟩
    · rw [errorMessages_of_not_document hdocument] at hmessages
      exact absurd hmessages.symm hsome

theorem not_explains_iff {body : String} :
    (∀ messages, ¬Explains body messages) ↔ errorMessages body = [] := by
  constructor
  · intro h
    by_contra hne
    exact h _ (explains_iff.2 ⟨rfl, hne⟩)
  · intro h messages hexplains
    obtain ⟨hmessages, hsome⟩ := explains_iff.1 hexplains
    exact hsome (hmessages.symm.trans h)

inductive TextAt (name : String) (fs : List (String × Json)) : Option String → Prop
  | text {s : String} (found : Json.lookup name fs = some (.string s)) : TextAt name fs (some s)
  | null (found : Json.lookup name fs = some .null) : TextAt name fs none
  | absent (missing : Json.lookup name fs = none) : TextAt name fs none

inductive Entry : Json → ErrorEntry → Prop
  | object {fs : List (String × Json)} {tag message : Option String}
    (distinct : (fs.map Prod.fst).Nodup) (tagged : TextAt "error-tag" fs tag)
    (explained : TextAt "error-message" fs message) : Entry (.object fs) ⟨tag, message⟩

inductive Document : Json → List ErrorEntry → Prop
  | object {fs gs : List (String × Json)} {list : List Json} {entries : List ErrorEntry}
    (outer : (fs.map Prod.fst).Nodup) (inner : (gs.map Prod.fst).Nodup)
    (errors : Json.lookup "errors" fs = some (.object gs))
    (error : Json.lookup "error" gs = some (.array list))
    (listed : List.Forall₂ Entry list entries) : Document (.object fs) entries

section

variable {fs : List (String × Json)} {name : String} {o : Option String} {depth : Nat}

theorem TextAt.get (h : TextAt name fs o) :
    (Json.Parts.named (Json.spelled depth fs)).get (Json.optional name Json.text) = .ok o := by
  cases h with
  | text found => exact Json.get_spelled rfl found rfl
  | null found => exact Json.get_spelled rfl found rfl
  | absent missing => exact Json.get_spelled_absent rfl missing rfl

theorem TextAt.check (h : TextAt name fs o) {v : Json} (found : Json.lookup name fs = some v) :
    (Json.optional name Json.text).guard.check (v.toDoc depth) = .ok () := by
  cases h with
  | text found' | null found' =>
    cases found.symm.trans found'
    rfl
  | absent missing => cases found.symm.trans missing

theorem Entry.read {v : Json} {e : ErrorEntry} (h : Entry v e) :
    ErrorEntry.read (v.toDoc depth) = .ok e := by
  obtain ⟨distinct, tagged, explained⟩ := h
  have hunaliased : ∀ g ∈ [ErrorEntry.tagField.guard, ErrorEntry.messageField.guard],
      g.aliases = [] := List.forall_mem_cons.2 ⟨rfl, List.forall_mem_singleton.2 rfl⟩
  rw [ErrorEntry.read, Json.record_of_lookup hunaliased distinct]
  · exact Json.bind_eq_ok.2 ⟨_, tagged.get, Json.bind_eq_ok.2 ⟨_, explained.get, rfl⟩⟩
  · simp only [List.forall_mem_cons, List.not_mem_nil, false_implies, implies_true, and_true]
    exact ⟨fun v hv => tagged.check hv, fun v hv => explained.check hv⟩

end

theorem Document.read {v : Json} {entries : List ErrorEntry} (h : Document v entries)
    {depth : Nat} : ErrorEntry.readDocument (v.toDoc depth) = .ok entries := by
  obtain @⟨fs, gs, list, entries, outer, inner, errors, error, listed⟩ := h
  have hlist : Json.list ErrorEntry.read ((Json.array list).toDoc (depth + 1 + 1)) = .ok entries :=
    Json.list_spelled (listed.imp fun _ _ he => he.read)
  have herrors : ErrorEntry.readList ((Json.object gs).toDoc (depth + 1)) = .ok entries := by
    rw [ErrorEntry.readList, Json.record_of_lookup _ inner]
    · exact Json.get_spelled rfl error hlist
    · rw [List.forall_mem_singleton]
      intro v hv
      cases hv.symm.trans error
      exact Json.check_guard hlist
    · exact List.forall_mem_singleton.2 rfl
  rw [ErrorEntry.readDocument, Json.record_of_lookup _ outer]
  · exact Json.get_spelled rfl errors herrors
  · rw [List.forall_mem_singleton]
    intro v hv
    cases hv.symm.trans errors
    exact Json.check_guard herrors
  · exact List.forall_mem_singleton.2 rfl

theorem Document.texts {v : Json} {entries : List ErrorEntry} (h : Document v entries)
    {body : String} (spells : Spells body v) :
    IsErrorDocument body ∧
      documentTexts (Doc.ofText body).1 = entries.filterMap fun e => e.message <|> e.tag := by
  have hread : Json.decodeText ErrorEntry.readDocument body = .ok entries :=
    (spells.decodeText _).trans h.read
  exact ⟨⟨entries, hread⟩, documentTexts_of_read (Json.read_of_decodeText hread)⟩

/-- What a client reports of an answer that is no success. -/
inductive Reports (path : String) (status : Nat) (body : String) : Error → Prop
  | unauthorized (rejected : status = 401) : Reports path status body .unauthorized
  | missing (gone : status = 404) (silent : ∀ messages, ¬Explains body messages) :
    Reports path status body (.notFound path)
  | explained {messages : List String} (accepted : status ≠ 401)
    (explains : Explains body messages) : Reports path status body (.refused status messages)
  | unexplained (accepted : status ≠ 401) (present : status ≠ 404)
    (silent : ∀ messages, ¬Explains body messages) :
    Reports path status body (.refused status
      ["HTTP " ++ statusText status ++ ": " ++ String.ofList (body.toList.take 200)])

theorem reports_of_unsuccessful {status : Nat} (h : isSuccess status = false) (body : String)
    (url : Url) :
    ∃ e, Reports url.pathText status body e ∧ (Reply.answer status body).result url = .error e := by
  rw [Reply.result, checkStatus, if_neg (Bool.eq_false_iff.1 h)]
  by_cases hauth : status = 401
  · exact ⟨_, .unauthorized hauth, if_pos hauth⟩
  · rw [if_neg hauth]
    cases hmessages : errorMessages body with
    | nil =>
      have hsilent := not_explains_iff.2 hmessages
      by_cases hgone : status = 404
      · exact ⟨_, .missing hgone hsilent, if_pos hgone⟩
      · exact ⟨_, .unexplained hauth hgone hsilent, if_neg hgone⟩
    | cons m ms =>
      exact ⟨_, .explained hauth (explains_iff.2 ⟨hmessages, List.cons_ne_nil m ms⟩), rfl⟩

theorem Reports.messages_ne_nil {path body : String} {status : Nat} {messages : List String}
    (h : Reports path status body (.refused status messages)) : messages ≠ [] := by
  cases h with
  | explained _ explains => exact explains.some
  | unexplained => exact List.cons_ne_nil _ _

theorem Reports.eq_of_refused {path path' body : String} {status : Nat} {messages : List String}
    {e : Error} (h : Reports path status body (.refused status messages))
    (h' : Reports path' status body e) : e = .refused status messages := by
  cases h with
  | explained accepted explains =>
    cases h' with
    | unauthorized rejected => exact absurd rejected accepted
    | missing _ silent => exact absurd explains (silent _)
    | explained _ explains' => rw [← explains.texts, ← explains'.texts]
    | unexplained _ _ silent => exact absurd explains (silent _)
  | unexplained accepted present silent =>
    cases h' with
    | unauthorized rejected => exact absurd rejected accepted
    | missing gone _ => exact absurd gone present
    | explained _ explains => exact absurd explains (silent _)
    | unexplained => rfl

theorem Reports.result_eq {path body : String} {status : Nat} {messages : List String}
    (h : Reports path status body (.refused status messages)) (failed : isSuccess status = false)
    (url : Url) : (Reply.answer status body).result url = .error (.refused status messages) := by
  obtain ⟨e, he, hresult⟩ := reports_of_unsuccessful failed body url
  rw [hresult, h.eq_of_refused he]

theorem Reports.exists_exchange {path body : String} {status : Nat} {messages : List String}
    (h : Reports path status body (.refused status messages)) (failed : isSuccess status = false)
    {n : Network} {r : Option Request} (heard : n.takes r ≠ [])
    (answered : n.reply 0 = .answer status body) :
    ∃ q, r = some q ∧ n.takes r = [q.received] ∧
      (Client.exchange q n).1 = .error (.refused status messages) := by
  rcases n.takes_cases r with hnone | ⟨q, hq, hhears, htakes⟩
  · exact absurd hnone heard
  · refine ⟨q, hq, htakes, ?_⟩
    rw [Client.exchange_of_hears hhears, answered, h.result_eq failed]

end EidMap.Rpc
