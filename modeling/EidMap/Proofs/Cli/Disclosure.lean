import EidMap.Proofs.Cli.Secrecy
import EidMap.Proofs.Stored.Blindness
import Mathlib.Algebra.Module.Submodule.Lattice
import Mathlib.Data.List.Permutation

/-!
# What a failure discloses

Two stores whose answers have the same status, and bodies that are the same but for secrets, make a
service and the program fail in the same way, but for one thing: an answer that cannot be read, and
one that was refused without a reason, are told with how the body begins.
-/

namespace EidMap

open Json (SameButSecrets)

namespace Rpc

inductive Reply.Alike (P : String → String → Prop) : Reply → Reply → Prop
  | same (r : Reply) : Alike P r r
  | answer (status : Nat) {body body' : String} (h : P body body') :
    Alike P (.answer status body) (.answer status body')

/-- What is said of an answer: where and why its body is not what it should be, or its status. -/
inductive Quotation
  | undecodable (e : Json.DecodeError)
  | refused (status : Nat)

def Quotation.message (body : String) : Quotation → String
  | .undecodable e => "Deserialization error: " ++
      Error.undecodableMessage (e.messageIn body) (Text.quoted (preview body))
  | .refused status => "HTTP " ++ statusText status ++ ": " ++ preview body

/-- Errors that are the same, or quote bodies that belong together. -/
inductive Error.Quotes (P : String → String → Prop) : Error → Error → Prop
  | same (e : Error) : Quotes P e e
  | undecodable (e : Json.DecodeError) {body body' : String} (h : P body body') :
    Quotes P (.undecodable (e.messageIn body) (Text.quoted (preview body)))
      (.undecodable (e.messageIn body') (Text.quoted (preview body')))
  | refused (status : Nat) {body body' : String} (h : P body body') :
    Quotes P (.refused status [(Quotation.refused status).message body])
      (.refused status [(Quotation.refused status).message body'])

end Rpc

namespace ServiceError

inductive Label
  | unexpected
  | api (status : Option Nat)
  | loadFailed (table : String)
  | operationFailed (operation : String)

def Label.error (message : String) : Label → ServiceError
  | .unexpected => .unexpected message
  | .api status => .api message status
  | .loadFailed table => .loadFailed table message
  | .operationFailed operation => .operationFailed operation message

inductive Quotes (P : String → String → Prop) : ServiceError → ServiceError → Prop
  | same (e : ServiceError) : Quotes P e e
  | quoted (label : Label) (q : Rpc.Quotation) {body body' : String} (h : P body body') :
    Quotes P (label.error (q.message body)) (label.error (q.message body'))

/-- Errors that are the same but for the line and the column that a body fails at. -/
inductive SameButPlace : ServiceError → ServiceError → Prop
  | same (e : ServiceError) : SameButPlace e e
  | placed (label : Label) (flaw : Json.Flaw) (place place' : Option Json.Place)
    (preview : String) :
    SameButPlace
      (label.error ("Deserialization error: " ++ Rpc.Error.undecodableMessage
        (flaw.message ++ (place.map Json.Place.text).getD "") preview))
      (label.error ("Deserialization error: " ++ Rpc.Error.undecodableMessage
        (flaw.message ++ (place'.map Json.Place.text).getD "") preview))

end ServiceError

/-- Bodies that are the same but for secrets, and begin in the same way. -/
structure BeginAlike (body body' : String) : Prop where
  secrets : SameButSecrets body body'
  beginning : Rpc.preview body' = Rpc.preview body

namespace ServiceError

variable {P : String → String → Prop} {e e' : ServiceError}

theorem Quotes.asLoadError (h : Quotes P e e') (table : String) :
    Quotes P (e.asLoadError table) (e'.asLoadError table) := by
  cases h with
  | same e => exact .same _
  | quoted label q h =>
    cases label with
    | unexpected | api => exact .quoted (.loadFailed table) q h
    | loadFailed t => exact .quoted (.loadFailed t) q h
    | operationFailed op => exact .quoted (.operationFailed op) q h

theorem Quotes.asOperationError (h : Quotes P e e') (operation : String) :
    Quotes P (e.asOperationError operation) (e'.asOperationError operation) := by
  cases h with
  | same e => exact .same _
  | quoted label q h =>
    cases label with
    | unexpected | api => exact .quoted (.operationFailed operation) q h
    | loadFailed t => exact .quoted (.loadFailed t) q h
    | operationFailed op => exact .quoted (.operationFailed op) q h

theorem Quotes.ofRpc {e e' : Rpc.Error} (h : e.Quotes P e') :
    Quotes P (ofRpc e) (ServiceError.ofRpc e') := by
  cases h with
  | same e => exact .same _
  | undecodable e h => exact .quoted .unexpected (.undecodable e) h
  | refused status h => exact .quoted (.api (some status)) (.refused status) h

theorem Quotes.sameButPlace (h : Quotes P e e')
    (begin : ∀ b b', P b b' → Rpc.preview b' = Rpc.preview b) : SameButPlace e e' := by
  cases h with
  | same e => exact .same e
  | @quoted label q body body' h =>
    cases q with
    | undecodable e =>
      have hplaced := SameButPlace.placed label e.flaw (e.site.place? body) (e.site.place? body')
        (Text.quoted (Rpc.preview body))
      unfold Rpc.Quotation.message
      rw [begin _ _ h]
      exact hplaced
    | refused status =>
      unfold Rpc.Quotation.message
      rw [begin _ _ h]
      exact .same _

end ServiceError

namespace Rpc

variable {P : String → String → Prop} (hP : ∀ b b', P b b' → SameButSecrets b b')
  {α : Type} {R Q : α → α → Prop} {read : Json.Doc → Json.Decoded α} {body body' : String}

theorem decodeBody_eq (read : Json.Doc → Json.Decoded α) (body : String) :
    decodeBody read body = (Json.decodeText read body).mapError fun e =>
      .undecodable (e.messageIn body) (Text.quoted (preview body)) := by
  rw [decodeBody]
  cases Json.decodeText read body <;> rfl

include hP in
theorem decodeBody_paired (hread : Json.Blind read R) (both : ∀ a b c, R a c → R b c → Q a b)
    (h : P body body') :
    Paired (Error.Quotes P) Q (decodeBody read body) (decodeBody read body') := by
  rw [decodeBody_eq, decodeBody_eq]
  refine (hread.decodeText both (hP _ _ h)).mapError fun e e' he => ?_
  rw [he]
  exact .undecodable e' h

include hP in
theorem checkStatus_paired (url : Url) (status : Nat) (h : P body body') :
    Paired (Error.Quotes P) P (checkStatus url status body) (checkStatus url status body') := by
  rw [checkStatus, checkStatus, errorMessages_of_sameButSecrets (hP _ _ h)]
  cases errorMessages body with
  | nil =>
    split_ifs
    · exact .ok h
    · exact .error (.same _)
    · exact .error (.same _)
    · exact .error (.refused status h)
  | cons =>
    split_ifs
    · exact .ok h
    · exact .error (.same _)
    · exact .error (.same _)
    · exact .error (.same _)

namespace Reply

include hP in
theorem database_paired (url : Url) (status : Nat) (h : P body body') :
    Paired (Error.Quotes P) (fun d d' => d'.identifiers = d.identifiers)
      ((answer status body).database url) ((answer status body').database url) := by
  have hresult := checkStatus_paired hP url status h
  rw [database, database, result, result]
  generalize checkStatus url status body = x at hresult ⊢
  generalize checkStatus url status body' = x' at hresult ⊢
  cases hresult with
  | ok h =>
    exact decodeBody_paired hP Stored.Database.blind_readDocument
      (fun _ _ _ ha hb => hb.symm.trans ha) h
  | @error e e' he =>
    -- an answer that nothing is there becomes an empty database, and nothing is quoted of it
    cases he with
    | same => cases e <;> first | exact .ok rfl | exact .error (.same _)
    | undecodable e h => exact .error (.undecodable e h)
    | refused status h => exact .error (.refused status h)

include hP in
theorem posted_paired (hread : Json.Blind read R) (both : ∀ a b c, R a c → R b c → Q a b)
    (url : Url) (status : Nat) (h : P body body') :
    Paired (Error.Quotes P) (Option.Rel Q) ((answer status body).posted read url)
      ((answer status body').posted read url) := by
  have hresult := checkStatus_paired hP url status h
  rw [posted, posted, result, result]
  generalize checkStatus url status body = x at hresult ⊢
  generalize checkStatus url status body' = x' at hresult ⊢
  cases hresult with
  | ok h =>
    dsimp only
    rw [(hP _ _ h).blank]
    split_ifs
    · exact .ok .none
    · exact (decodeBody_paired hP hread both h).map fun _ _ => .some
  | error he => exact .error he

end Reply

end Rpc

def quoting (P : String → String → Prop) : Likeness where
  error := ServiceError.Quotes P
  row t a a' := t.shelf.eidUri a' = t.shelf.eidUri a
  body _ _ := True

section Quoting

variable {P : String → String → Prop}

theorem lawful_quoting : (quoting P).Lawful where
  error_refl := .same
  error_load table h := h.asLoadError table
  error_operation op h := h.asOperationError op
  row_refl _ _ := rfl
  row_eidUri := id
  row_body _ := trivial
  body_refl _ := trivial

variable (hP : ∀ b b', P b b' → SameButSecrets b b')

theorem databases_quoting {d d' : Stored.Database} (h : d'.identifiers = d.identifiers) :
    (quoting P).Databases d d' := by
  intro t
  refine forall₂_of_map_eq (f := t.shelf.eidUri) ?_
  cases t with
  | mappings =>
    have hrows : ∀ d : Stored.Database,
        (Service.mappingRows d).map Mapping.eidUri = d.identifiers.flatMap Prod.fst := by
      intro d
      rw [Service.mappingRows, Stored.Database.identifiers, List.map_flatMap, List.flatMap_map]
      refine List.flatMap_congr fun n _ => ?_
      rw [List.map_map]
      rfl
    exact (hrows d').trans (h ▸ (hrows d).symm)
  | keys =>
    have hrows : ∀ d : Stored.Database,
        (Service.keyRows d).map KeyEntry.eidUri = d.identifiers.flatMap Prod.snd := by
      intro d
      rw [Service.keyRows, Stored.Database.identifiers, List.map_flatMap, List.flatMap_map]
      refine List.flatMap_congr fun n _ => ?_
      rw [List.map_map]
      rfl
    exact (hrows d').trans (h ▸ (hrows d).symm)

theorem found_quoting {β : Type} (t : Topic) {row : Address → β → t.Row}
    (huri : ∀ eid b b', t.shelf.eidUri (row eid b') = t.shelf.eidUri (row eid b))
    {o o' : Option (Option β)} (h : Option.Rel (Option.Rel Json.Any) o o') :
    (quoting P).Found t row o o' := by
  cases h with
  | none => exact .none
  | some h =>
    cases h with
    | none => exact .none
    | some => exact .some fun eid => huri eid _ _

theorem rel_any_of_common {α : Type} {a b c : Option α} (h : Option.Rel Json.Any a c)
    (h' : Option.Rel Json.Any b c) : Option.Rel Json.Any a b := by
  cases h with
  | none => cases h' with | none => exact .none
  | some => cases h' with | some => exact .some trivial

include hP in
theorem agrees_quoting (u : Use) {r r' : Rpc.Reply} (h : r.Alike P r') :
    (quoting P).Agrees u r r' := by
  cases h with
  | same r => exact .refl lawful_quoting u r
  | answer status h =>
    -- each use reads the body with its own reader, and every one of them is blind
    cases u with
    | database =>
      exact fun url => (Rpc.Reply.database_paired hP url status h).imp (fun _ _ => .ofRpc)
        fun _ _ => databases_quoting
    | key =>
      have hfound := Json.Blind.field (f := Json.optional "mapping-authkey" Stored.Secret.read)
        Stored.Secret.blind_read.option rfl fun a ha => Option.some.inj ha ▸ .none
      have hread := Rpc.Client.blind_readFound "struct GetKeyOutput" hfound
      intro url
      exact (Rpc.Reply.posted_paired hP hread (fun _ _ _ => rel_any_of_common) url status h).imp
        (fun _ _ => .ofRpc) fun _ _ => found_quoting .keys fun _ _ _ => rfl
    | mapping =>
      have hfound := Json.Blind.field (f := Json.optional "mapping-record" Stored.Record.read)
        Stored.Record.blind_read.option rfl fun a ha => Option.some.inj ha ▸ .none
      have hread := Rpc.Client.blind_readFound "struct GetMappingOutput" hfound
      intro url
      exact (Rpc.Reply.posted_paired hP hread (fun _ _ _ => rel_any_of_common) url status h).imp
        (fun _ _ => .ofRpc) fun _ _ => found_quoting .mappings fun _ _ _ => rfl
    | change =>
      have hread : Json.Blind (Rpc.Client.readOutput Json.value .null) Json.Any :=
        Rpc.Client.blind_readOutput Json.blind_value trivial
      intro url
      exact (Rpc.Reply.posted_paired hP hread (Q := Json.Any) (fun _ _ _ _ _ => trivial) url
        status h).imp (fun _ _ => .ofRpc) fun _ _ _ => trivial
    | removal =>
      intro url
      rw [Rpc.Reply.acceptance_eq, Rpc.Reply.acceptance_eq]
      have hposted := Rpc.Reply.posted_paired hP Json.blind_value (Q := Json.Any)
        (fun _ _ _ _ _ => trivial) url status h
      exact (hposted.imp (fun _ _ => .ofRpc) fun _ _ => id).map fun _ _ _ => trivial

include hP in
theorem session_quoting (s : Service) (cs : List Service.Call) (script : List Rpc.Reply)
    (alike : ∀ i u, (s.used cs)[i]? = some u →
      (s.network.reply i).Alike P ((s.rescripted script).network.reply i)) :
    List.Forall₂ (Paired (ServiceError.Quotes P) Json.Any) (s.answers cs)
        ((s.rescripted script).answers cs) ∧
      ∀ t : Topic, (quoting P).Statuses (t.shelf.get (s.run cs)).status
        (t.shelf.get ((s.rescripted script).run cs)).status := by
  obtain ⟨hanswers, hrun, -⟩ := Likeness.run_steps lawful_quoting
    (Likeness.services_rescripted lawful_quoting s script) cs
    fun i u hu => agrees_quoting hP u (alike i u hu)
  exact ⟨hanswers.imp fun _ _ h => h.mono fun _ _ _ => trivial, fun t => (hrun.tables t).status⟩

theorem prints_quoting : (quoting P).Prints Json.Any :=
  ⟨fun _ => trivial, fun _ _ _ _ _ _ => trivial, fun _ _ _ _ _ => trivial, fun _ _ _ _ _ => trivial,
    fun _ _ _ _ => trivial⟩

include hP in
theorem run_quoting (w : Cli.World) (args : List String) (script : List Rpc.Reply)
    (alike : ∀ i u, (Cli.used w args)[i]? = some u →
      (w.network.reply i).Alike P ((w.rescripted script).network.reply i)) :
    Paired Eq (fun r r' => Paired (quoting P).CliErrors Json.Any r.outcome r'.outcome)
      (Cli.run w args) (Cli.run (w.rescripted script) args) := by
  have hrun' : Cli.run (w.rescripted script) args =
    Cli.run { w with network := (w.rescripted script).network } args := rfl
  rw [hrun']
  rcases Likeness.runs_run (w := w) (n := (w.rescripted script).network) lawful_quoting
    prints_quoting rfl (fun i u hu => agrees_quoting hP u (alike i u hu)) with
    ⟨u, hu, hu'⟩ | ⟨r, r', hr, hr', hruns⟩
  · rw [hu, hu']
    exact .error rfl
  · rw [hr, hr']
    exact .ok hruns.outcome

end Quoting

def placing : Likeness := { quoting BeginAlike with error := ServiceError.SameButPlace }

theorem placing_of_quoting {e e' : ServiceError} (h : (quoting BeginAlike).error e e') :
    placing.error e e' :=
  h.sameButPlace fun _ _ hb => hb.beginning

theorem session_begin_alike (s : Service) (cs : List Service.Call) (script : List Rpc.Reply)
    (alike : ∀ i u, (s.used cs)[i]? = some u →
      (s.network.reply i).Alike BeginAlike ((s.rescripted script).network.reply i)) :
    List.Forall₂ (Paired ServiceError.SameButPlace Json.Any) (s.answers cs)
        ((s.rescripted script).answers cs) ∧
      ∀ t : Topic, placing.Statuses (t.shelf.get (s.run cs)).status
        (t.shelf.get ((s.rescripted script).run cs)).status := by
  obtain ⟨hanswers, hstatuses⟩ := session_quoting (fun _ _ h => h.secrets) s cs script alike
  exact ⟨hanswers.imp fun _ _ h => h.imp (fun _ _ => placing_of_quoting) fun _ _ => id,
    fun t => (hstatuses t).imp _ fun _ _ => placing_of_quoting⟩

theorem run_begin_alike (w : Cli.World) (args : List String) (script : List Rpc.Reply)
    (alike : ∀ i u, (Cli.used w args)[i]? = some u →
      (w.network.reply i).Alike BeginAlike ((w.rescripted script).network.reply i)) :
    Paired Eq (fun r r' => Paired placing.CliErrors Json.Any r.outcome r'.outcome)
      (Cli.run w args) (Cli.run (w.rescripted script) args) := by
  refine (run_quoting (fun _ _ h => h.secrets) w args script alike).mono fun r r' h => ?_
  exact h.imp (fun _ _ he => he.imp _ fun _ _ => placing_of_quoting) fun _ _ => id

/-- Two sessions of a service, or two runs of the program, whose stores answer alike but for
secrets. The same calls fail, with errors and banners that are the same but for what they quote of
bodies and where they say these fail, and the program ends in the same way but for that. Where the
bodies also begin alike, the failures are the same but for the line and the column. -/
theorem failures_quote_beginnings (s : Service) (cs : List Service.Call) (w : Cli.World)
    (args : List String) (script : List Rpc.Reply) :
    ((∀ i u, (s.used cs)[i]? = some u →
        (s.network.reply i).Alike SameButSecrets ((s.rescripted script).network.reply i)) →
      List.Forall₂ (Paired (ServiceError.Quotes SameButSecrets) Json.Any) (s.answers cs)
          ((s.rescripted script).answers cs) ∧
        ∀ t : Topic, (quoting SameButSecrets).Statuses (t.shelf.get (s.run cs)).status
          (t.shelf.get ((s.rescripted script).run cs)).status) ∧
    ((∀ i u, (Cli.used w args)[i]? = some u →
        (w.network.reply i).Alike SameButSecrets ((w.rescripted script).network.reply i)) →
      Paired Eq (fun r r' => Paired (quoting SameButSecrets).CliErrors Json.Any r.outcome r'.outcome)
        (Cli.run w args) (Cli.run (w.rescripted script) args)) ∧
    ((∀ i u, (s.used cs)[i]? = some u →
        (s.network.reply i).Alike BeginAlike ((s.rescripted script).network.reply i)) →
      List.Forall₂ (Paired ServiceError.SameButPlace Json.Any) (s.answers cs)
          ((s.rescripted script).answers cs) ∧
        ∀ t : Topic, placing.Statuses (t.shelf.get (s.run cs)).status
          (t.shelf.get ((s.rescripted script).run cs)).status) ∧
    ((∀ i u, (Cli.used w args)[i]? = some u →
        (w.network.reply i).Alike BeginAlike ((w.rescripted script).network.reply i)) →
      Paired Eq (fun r r' => Paired placing.CliErrors Json.Any r.outcome r'.outcome)
        (Cli.run w args) (Cli.run (w.rescripted script) args)) :=
  ⟨session_quoting (fun _ _ => id) s cs script, run_quoting (fun _ _ => id) w args script,
    session_begin_alike s cs script, run_begin_alike w args script⟩

theorem refresh_of_unread {s : Service} (t : Topic) {status : Nat} {body : String}
    {e : Json.DecodeError} (heard : s.network.takes s.reading? ≠ [])
    (answered : s.network.reply 0 = .answer status body) (success : Rpc.isSuccess status = true)
    (unread : Json.decodeText Stored.Database.readDocument body = .error e) :
    (s.refresh t.shelf).1 = .error (.loadFailed (t.shelf.get s).name
      ((Rpc.Quotation.undecodable e).message body)) := by
  obtain ⟨url, hload⟩ := Service.load_of_takes heard
  rw [answered, Rpc.Reply.database, Rpc.Reply.result_of_isSuccess success] at hload
  dsimp only at hload
  rw [Rpc.decodeBody_eq, unread] at hload
  have hrefresh := Service.refresh_of_not_load (t := t) (T := t.shelf.get s) hload
  rw [Service.put_self] at hrefresh
  rw [hrefresh]
  rfl

/-- A document whose network is numbered by a text, with one key. -/
def misnumbered : String := "[[[[\"0\",[],[[\"a\",1,\x7b\"key-string\":\"s3cret\"\x7d]]]]]]"

def otherMisnumbered : String :=
  "[[[[\"0\",[],[[\"a\",1,\x7b\"key-string\":\"hunter2\"\x7d]]]]]]"

theorem sameButSecrets_misnumbered : SameButSecrets misnumbered otherMisnumbered where
  document := by
    have h : (Json.Doc.ofText misnumbered).1.masked =
        (Json.Doc.ofText otherMisnumbered).1.masked := by cbv
    exact h.symm
  rest := by cbv
  blank := by cbv

def misnumbering : Json.DecodeError :=
  ⟨.invalidType (.text "0") "u32", ⟨[0, 0, 0, 0], .ending⟩⟩

theorem message_misnumbering (body : String)
    (place : misnumbering.site.place? body = some ⟨1, 7⟩) :
    (Rpc.Quotation.undecodable misnumbering).message body =
      "Deserialization error: " ++ Rpc.Error.undecodableMessage
        "invalid type: string \"0\", expected u32 at line 1 column 7"
        (Text.quoted (Rpc.preview body)) := by
  have htext : misnumbering.messageIn body =
      "invalid type: string \"0\", expected u32 at line 1 column 7" := by
    unfold Json.DecodeError.messageIn
    rw [place]
    decide +kernel
  unfold Rpc.Quotation.message
  dsimp only
  rw [htext]

/-- Two documents that are the same but for a secret make a refresh of the keys fail with errors
that tell the secret. -/
theorem secret_quoted :
    SameButSecrets misnumbered otherMisnumbered ∧
      ((Service.scripted [.answer 200 misnumbered]).refresh (Topic.shelf .keys)).1 =
        .error (.loadFailed "keys" ("Deserialization error: invalid type: string \"0\", " ++
          "expected u32 at line 1 column 7 (body preview: \"[[[[\\\"0\\\",[],[[\\\"a\\\",1,\x7b" ++
          "\\\"key-string\\\":\\\"s3cret\\\"\x7d]]]]]]\")")) ∧
      ((Service.scripted [.answer 200 otherMisnumbered]).refresh (Topic.shelf .keys)).1 =
        .error (.loadFailed "keys" ("Deserialization error: invalid type: string \"0\", " ++
          "expected u32 at line 1 column 7 (body preview: \"[[[[\\\"0\\\",[],[[\\\"a\\\",1,\x7b" ++
          "\\\"key-string\\\":\\\"hunter2\\\"\x7d]]]]]]\")")) ∧
      ((Service.scripted [.answer 200 misnumbered]).refresh (Topic.shelf .keys)).1 ≠
        ((Service.scripted [.answer 200 otherMisnumbered]).refresh (Topic.shelf .keys)).1 := by
  have hread : Json.decodeText Stored.Database.readDocument misnumbered = .error misnumbering := by
    cbv
  have hread' :
      Json.decodeText Stored.Database.readDocument otherMisnumbered = .error misnumbering := by
    cbv
  have hfailed := refresh_of_unread .keys
    (Service.scripted_heard [.answer 200 misnumbered]) rfl rfl hread
  have hfailed' := refresh_of_unread .keys
    (Service.scripted_heard [.answer 200 otherMisnumbered]) rfl rfl hread'
  have hmessage := message_misnumbering misnumbered (by cbv)
  have hmessage' := message_misnumbering otherMisnumbered (by cbv)
  refine ⟨sameButSecrets_misnumbered, hfailed.trans ?_, hfailed'.trans ?_, ?_⟩
  · exact congrArg (fun m => Except.error (ServiceError.loadFailed "keys" m))
      (hmessage.trans (by decide +kernel))
  · exact congrArg (fun m => Except.error (ServiceError.loadFailed "keys" m))
      (hmessage'.trans (by decide +kernel))
  · rw [hfailed, hfailed']
    intro h
    injection h with h
    injection h with _ h
    exact absurd (hmessage.symm.trans (h.trans hmessage')) (by decide +kernel)

def padded (body : String) : String := String.ofList (List.replicate 200 ' ' ++ body.toList)

theorem toList_padded (body : String) :
    (padded body).toList = List.replicate 200 ' ' ++ body.toList :=
  String.toList_ofList

theorem preview_padded (body : String) :
    Rpc.preview (padded body) = String.ofList (List.replicate 200 ' ') := by
  rw [Rpc.preview, toList_padded, List.take_left' List.length_replicate]

set_option maxRecDepth 4000 in
theorem beginAlike_padded : BeginAlike (padded misnumbered) (padded otherMisnumbered) := by
  refine ⟨⟨?_, ?_, ?_⟩, by rw [preview_padded, preview_padded]⟩
  · rw [Json.Doc.ofText, Json.Doc.ofText, toList_padded, toList_padded]
    cbv
  · rw [Json.Doc.ofText, Json.Doc.ofText, toList_padded, toList_padded]
    cbv
  · rw [toList_padded, toList_padded]
    cbv

theorem misnumbered_failures :
    List.Forall₂ (Paired (ServiceError.Quotes SameButSecrets) Json.Any)
        ((Service.scripted [.answer 200 misnumbered]).answers [.refresh .keys])
        ((Service.scripted [.answer 200 otherMisnumbered]).answers [.refresh .keys]) ∧
      Paired Eq (fun r r' => Paired (quoting SameButSecrets).CliErrors Json.Any r.outcome r'.outcome)
        (Cli.run (oneKeyWorld.rescripted [.answer 200 misnumbered]) ["keys", "list"])
        (Cli.run (oneKeyWorld.rescripted [.answer 200 otherMisnumbered]) ["keys", "list"]) ∧
      List.Forall₂ (Paired ServiceError.SameButPlace Json.Any)
        ((Service.scripted [.answer 200 (padded misnumbered)]).answers [.refresh .keys])
        ((Service.scripted [.answer 200 (padded otherMisnumbered)]).answers [.refresh .keys]) ∧
      Paired Eq (fun r r' => Paired placing.CliErrors Json.Any r.outcome r'.outcome)
        (Cli.run (oneKeyWorld.rescripted [.answer 200 (padded misnumbered)]) ["keys", "list"])
        (Cli.run (oneKeyWorld.rescripted [.answer 200 (padded otherMisnumbered)])
          ["keys", "list"]) := by
  have alike : Rpc.Reply.Alike SameButSecrets (.answer 200 misnumbered)
      (.answer 200 otherMisnumbered) := .answer 200 sameButSecrets_misnumbered
  have alike' : Rpc.Reply.Alike BeginAlike (.answer 200 (padded misnumbered))
      (.answer 200 (padded otherMisnumbered)) := .answer 200 beginAlike_padded
  obtain ⟨hsession, hlisted, -, -⟩ := failures_quote_beginnings
    (.scripted [.answer 200 misnumbered]) [.refresh .keys]
    (oneKeyWorld.rescripted [.answer 200 misnumbered]) ["keys", "list"]
    [.answer 200 otherMisnumbered]
  obtain ⟨-, -, hsession', hlisted'⟩ := failures_quote_beginnings
    (.scripted [.answer 200 (padded misnumbered)]) [.refresh .keys]
    (oneKeyWorld.rescripted [.answer 200 (padded misnumbered)]) ["keys", "list"]
    [.answer 200 (padded otherMisnumbered)]
  rw [Cli.World.rescripted_rescripted] at hlisted hlisted'
  refine ⟨(hsession fun i u hu => ?_).1, hlisted fun i u hu => ?_,
    (hsession' fun i u hu => ?_).1, hlisted' fun i u hu => ?_⟩
  · obtain ⟨rfl, rfl⟩ := eq_of_mem_used hu
    exact alike
  · obtain ⟨rfl, rfl⟩ := eq_of_mem_listed hu
    exact alike
  · obtain ⟨rfl, rfl⟩ := eq_of_mem_used hu
    exact alike'
  · obtain ⟨rfl, rfl⟩ := eq_of_mem_listed hu
    exact alike'

end EidMap
