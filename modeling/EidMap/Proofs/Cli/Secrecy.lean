import EidMap.Proofs.Cli.Lockstep
import Mathlib.Algebra.Module.Submodule.Lattice

/-!
# Secrets of stored keys

Two stores that hold the same but for the secrets of their keys cannot be told apart by what a
service answers, shows, writes or sends, nor by a run of the program: only the secret of a key
entry itself may differ. Secrets come in with two kinds of answers, the database and the key that
was asked for.
-/

namespace EidMap

def KeyEntry.redacted (k : KeyEntry) : KeyEntry := { k with secret := "" }

def Row.redacted (r : Row KeyEntry) : Row KeyEntry := { r with item := r.item.redacted }

def Table.redacted (T : Table KeyEntry) : Table KeyEntry :=
  { T with rows := T.rows.map Row.redacted }

namespace Service

def Result.redacted : Result → Result
  | .key k => .key k.redacted
  | r => r

def Answer.redacted : Answer → Answer
  | .keys T => .keys T.redacted
  | .key k => .key k.redacted
  | .executed r => .executed r.redacted
  | a => a

/-- A service without its secrets, and without what the network would still answer. -/
def redacted (s : Service) : Service :=
  { s with keys := s.keys.redacted, network := { s.network with script := [] } }

def rescripted (s : Service) (script : List Rpc.Reply) : Service :=
  { s with network := { s.network with script } }

end Service

def Cli.World.rescripted (w : World) (script : List Rpc.Reply) : World :=
  { w with network := { w.network with script } }

theorem Cli.World.rescripted_rescripted (w : World) (script script' : List Rpc.Reply) :
    (w.rescripted script).rescripted script' = w.rescripted script' :=
  rfl

def Cli.Run.unscripted (r : Run) : Run := { r with world := r.world.rescripted [] }

namespace Stored

def Key.masked (k : Key) : Key := { k with secret := k.secret.masked }

def Network.masked (n : Network) : Network := { n with keys := n.keys.map Key.masked }

def Database.masked (d : Database) : Database := ⟨d.networks.map Network.masked⟩

end Stored

abbrev readKey : Json.Doc → Json.Decoded (Option Stored.Secret) :=
  Rpc.Client.readFound "struct GetKeyOutput" (Json.optional "mapping-authkey" Stored.Secret.read)

/-- Answers that differ in nothing but secrets: those of a database, or of a key that was asked for,
and both answers can be read. -/
inductive DifferInSecrets : Use → Rpc.Reply → Rpc.Reply → Prop
  | same (u : Use) (r : Rpc.Reply) : DifferInSecrets u r r
  | database {r r' : Rpc.Reply} {d d' : Stored.Database} (gives : r.Gives d) (gives' : r'.Gives d')
    (like : d'.masked = d.masked) : DifferInSecrets .database r r'
  | key {r r' : Rpc.Reply} {k k' : Option Stored.Secret} (answers : r.Answered readKey (some k))
    (answers' : r'.Answered readKey (some k'))
    (like : k'.map Stored.Secret.masked = k.map Stored.Secret.masked) : DifferInSecrets .key r r'

theorem Service.redacted_foundKey (eid : Address) (k : Stored.Secret) :
    (foundKey eid k.masked).redacted = (foundKey eid k).redacted :=
  rfl

theorem mappingRows_masked (d : Stored.Database) :
    Service.mappingRows d.masked = Service.mappingRows d := by
  rw [Service.mappingRows, Stored.Database.masked, List.flatMap_map]
  rfl

theorem keyRows_masked (d : Stored.Database) :
    (Service.keyRows d.masked).map KeyEntry.redacted =
      (Service.keyRows d).map KeyEntry.redacted := by
  rw [Service.keyRows, Service.keyRows, Stored.Database.masked, List.flatMap_map, List.map_flatMap,
    List.map_flatMap]
  refine List.flatMap_congr fun n _ => ?_
  rw [Stored.Network.masked, List.map_map, List.map_map, List.map_map]
  rfl

def secretly : Likeness where
  error := Eq
  row
    | .mappings => Eq
    | .keys => fun k k' => k'.redacted = k.redacted
  body := Eq

theorem lawful_secretly : secretly.Lawful where
  error_refl _ := rfl
  error_load table h := congrArg (ServiceError.asLoadError table) h
  error_operation op h := congrArg (ServiceError.asOperationError op) h
  row_refl t a := by cases t <;> rfl
  row_eidUri {t a a'} h := by
    cases t with
    | mappings => exact congrArg Mapping.eidUri h.symm
    | keys =>
      have hredacted : a'.redacted = a.redacted := h
      have heidUri : a'.redacted.eidUri = a.redacted.eidUri := congrArg KeyEntry.eidUri hredacted
      exact heidUri
  row_body {t a a'} h := by
    cases t with
    | mappings => exact congrArg (fun m => (Rpc.Removal.ofMapping m).body) h
    | keys =>
      have hredacted : a'.redacted = a.redacted := h
      have hbody : (Rpc.Removal.ofKey a.redacted).body = (Rpc.Removal.ofKey a'.redacted).body :=
        congrArg (fun k => (Rpc.Removal.ofKey k).body) hredacted.symm
      exact hbody
  body_refl _ := rfl

theorem secretly_databases {d d' : Stored.Database} (h : d'.masked = d.masked) :
    secretly.Databases d d' := by
  intro t
  cases t with
  | mappings =>
    have hrows : Service.mappingRows d' = Service.mappingRows d := by
      rw [← mappingRows_masked, h, mappingRows_masked]
    have hsame : List.Forall₂ Eq (Service.mappingRows d) (Service.mappingRows d') := by
      rw [hrows]
      exact List.forall₂_refl _
    exact hsame
  | keys =>
    have hrows : (Service.keyRows d').map KeyEntry.redacted =
        (Service.keyRows d).map KeyEntry.redacted := by
      rw [← keyRows_masked, h, keyRows_masked]
    exact forall₂_of_map_eq hrows

theorem DifferInSecrets.agrees {u : Use} {r r' : Rpc.Reply} (h : DifferInSecrets u r r') :
    secretly.Agrees u r r' := by
  cases h with
  | same u r => exact .refl lawful_secretly u r
  | database gives gives' like =>
    intro url
    rw [Rpc.Reply.database_eq_ok.2 gives, Rpc.Reply.database_eq_ok.2 gives']
    exact .ok (secretly_databases like)
  | @key r r' k k' answers answers' like =>
    intro url
    rw [Rpc.Reply.posted_eq_ok.2 answers, Rpc.Reply.posted_eq_ok.2 answers']
    refine .ok ?_
    cases k with
    | none =>
      cases k' with
      | none => exact .none
      | some k' => cases like
    | some k =>
      cases k' with
      | none => cases like
      | some k' =>
        have hmasked : k'.masked = k.masked := Option.some.inj like
        refine .some fun eid => ?_
        have hentry : (Service.foundKey eid k').redacted = (Service.foundKey eid k).redacted := by
          rw [← Service.redacted_foundKey, hmasked, Service.redacted_foundKey]
        exact hentry

theorem statuses_secretly {S S' : Status} (h : secretly.Statuses S S') : S' = S := by
  cases h with
  | same => rfl
  | @loadError e e' he =>
    have heq : e = e' := he
    rw [heq]
  | @operationFailed op e e' he =>
    have heq : e = e' := he
    rw [heq]

theorem tables_secretly_mappings {T T' : Table Mapping} (h : secretly.Tables .mappings T T') :
    T' = T := by
  have hrows : List.Forall₂ (fun a b => id b = id a) T.rows T'.rows :=
    h.rows.imp fun a b hab => by
      have hitem : a.item = b.item := hab.item
      rcases a with ⟨item, detail, delete⟩
      rcases b with ⟨item', detail', delete'⟩
      cases hitem
      cases hab.detailOpen
      cases hab.deleteOpen
      rfl
  have heq := map_eq_of_forall₂ hrows
  rw [List.map_id, List.map_id] at heq
  rcases T with ⟨name, rows, status, setAt, generation, loadedAt, clock⟩
  rcases T' with ⟨name', rows', status', setAt', generation', loadedAt', clock'⟩
  cases heq
  cases h.name
  cases statuses_secretly h.status
  cases h.generation
  cases h.setAt
  cases h.loadedAt
  cases h.clock
  rfl

theorem tables_secretly_keys {T T' : Table KeyEntry} (h : secretly.Tables .keys T T') :
    T'.redacted = T.redacted := by
  have hrows : List.Forall₂ (fun a b => Row.redacted b = Row.redacted a) T.rows T'.rows :=
    h.rows.imp fun a b hab => by
      have hitem : b.item.redacted = a.item.redacted := hab.item
      rw [Row.redacted, Row.redacted, hitem, hab.detailOpen, hab.deleteOpen]
  rw [Table.redacted, Table.redacted, map_eq_of_forall₂ hrows, h.name, statuses_secretly h.status,
    h.generation, h.setAt, h.loadedAt, h.clock]

theorem results_secretly {r r' : Service.Result} (h : secretly.Results r r') :
    r'.redacted = r.redacted := by
  cases h with
  | done => rfl
  | @key k k' hk =>
    have hredacted : k'.redacted = k.redacted := hk
    rw [Service.Result.redacted, Service.Result.redacted, hredacted]
  | @mapping m m' hm =>
    have heq : m = m' := hm
    rw [heq]

theorem answers_secretly {a a' : Service.Answer} (h : secretly.Answers a a') :
    a'.redacted = a.redacted := by
  cases h with
  | done => rfl
  | mappings hT => rw [tables_secretly_mappings hT]
  | keys hT =>
    rw [Service.Answer.redacted, Service.Answer.redacted, tables_secretly_keys hT]
  | @mapping m m' hm =>
    have heq : m = m' := hm
    rw [heq]
  | @key k k' hk =>
    have hredacted : k'.redacted = k.redacted := hk
    rw [Service.Answer.redacted, Service.Answer.redacted, hredacted]
  | toggled => rfl
  | executed hr => rw [Service.Answer.redacted, Service.Answer.redacted, results_secretly hr]

theorem requests_secretly {qs qs' : List Rpc.Request}
    (h : List.Forall₂ secretly.Requests qs qs') : qs' = qs := by
  induction h with
  | nil => rfl
  | @cons q q' qs qs' hq _ ih =>
    have hbody : q'.body = q.body := by
      have hrel := hq.body
      generalize q.body = o at hrel ⊢
      generalize q'.body = o' at hrel ⊢
      cases hrel with
      | none => rfl
      | @some v v' hv =>
        have heq : v = v' := hv
        rw [heq]
    rcases q with ⟨method, url, headers, body⟩
    rcases q' with ⟨method', url', headers', body'⟩
    cases hq.method
    cases hq.url
    cases hq.headers
    cases hbody
    rw [ih]

theorem outcome_secretly {α β : Type} {P : α → α → Prop} {f : α → β} (hf : ∀ a b, P a b → f b = f a)
    {x y : Service.Outcome α} (h : Paired secretly.error P x y) : y.map f = x.map f := by
  cases h with
  | ok hab => exact congrArg Except.ok (hf _ _ hab)
  | @error e e' he =>
    have heq : e = e' := he
    rw [heq]

theorem Likeness.services_rescripted {L : Likeness} (hL : L.Lawful) (s : Service)
    (script : List Rpc.Reply) : L.Services s (s.rescripted script) := by
  have hrefl : ∀ t, L.Tables t (t.shelf.get s) (t.shelf.get s) := fun t =>
    ⟨rfl, List.forall₂_same.2 fun r _ => ⟨hL.row_refl t _, rfl, rfl⟩, .same _, rfl, rfl, rfl, rfl⟩
  refine ⟨rfl, rfl, rfl, fun t => ?_⟩
  cases t with
  | mappings => exact hrefl .mappings
  | keys => exact hrefl .keys

theorem session_secretly (s : Service) (cs : List Service.Call) (script : List Rpc.Reply)
    (differ : ∀ i u, (s.used cs)[i]? = some u →
      DifferInSecrets u (s.network.reply i) ((s.rescripted script).network.reply i)) :
    ((s.rescripted script).answers cs).map (Except.map Service.Answer.redacted) =
        (s.answers cs).map (Except.map Service.Answer.redacted) ∧
      ((s.rescripted script).run cs).redacted = (s.run cs).redacted := by
  obtain ⟨hanswers, hrun, qs, qs', hsent, hnetwork, hnetwork'⟩ :=
    Likeness.run_steps lawful_secretly (Likeness.services_rescripted lawful_secretly s script) cs
      fun i u hu => (differ i u hu).agrees
  constructor
  · have hsame : List.Forall₂ (fun a b => Except.map Service.Answer.redacted b =
        Except.map Service.Answer.redacted a) (s.answers cs) ((s.rescripted script).answers cs) :=
      hanswers.imp fun _ _ h =>
        outcome_secretly (f := Service.Answer.redacted) (fun _ _ => answers_secretly) h
    exact map_eq_of_forall₂ hsame
  · have hmappings : ((s.rescripted script).run cs).mappings = (s.run cs).mappings :=
      tables_secretly_mappings (hrun.tables .mappings)
    have hkeys : ((s.rescripted script).run cs).keys.redacted = (s.run cs).keys.redacted :=
      tables_secretly_keys (hrun.tables .keys)
    have hnetwork : { ((s.rescripted script).run cs).network with script := [] } =
        { (s.run cs).network with script := [] } := by
      rw [Rpc.Network.mk.injEq, hnetwork, hnetwork', requests_secretly hsent]
      exact ⟨rfl, rfl, rfl⟩
    rw [Service.redacted, Service.redacted, hmappings, hkeys, hrun.settings, hrun.files, hnetwork]

theorem KeyEntry.list_redacted (f : Output.Format) (ks : List KeyEntry) :
    f.list view (ks.map redacted) = f.list view ks := by
  have hmap : ∀ {β : Type} (h : KeyEntry → β), (∀ k, h k.redacted = h k) →
      (ks.map redacted).map h = ks.map h := by
    intro β h hh
    rw [List.map_map]
    exact List.map_congr_left fun k _ => hh k
  cases f with
  | table => exact congrArg (Output.grid view.header) (hmap view.row fun _ => rfl)
  | json => exact congrArg (fun js => (Json.array js).pretty 2) (hmap view.toJson fun _ => rfl)
  | compactJson => exact congrArg (fun js => (Json.array js).compact) (hmap view.toJson fun _ => rfl)
  | yaml => exact congrArg (fun js => Yaml.text (.array js)) (hmap view.toJson fun _ => rfl)
  | plain => exact congrArg (String.intercalate "\n") (hmap view.name fun _ => rfl)

theorem KeyEntry.single_redacted (f : Output.Format) (k : KeyEntry) :
    f.single view k.redacted = f.single view k := by
  cases f <;> rfl

theorem KeyEntry.filter_redacted (sel : Cli.Selection) (ks : List KeyEntry) :
    (ks.filter (Cli.keys.isSelected sel)).map redacted =
      (ks.map redacted).filter (Cli.keys.isSelected sel) := by
  rw [List.filter_map]
  rfl

theorem prints_secretly : secretly.Prints Eq where
  refl _ := rfl
  list g sel t {xs ys} h := by
    cases t with
    | mappings =>
      have hsame : List.Forall₂ Eq xs ys := h
      rw [List.forall₂_eq_eq_eq] at hsame
      rw [hsame]
    | keys =>
      have hsame : ys.map KeyEntry.redacted = xs.map KeyEntry.redacted := map_eq_of_forall₂ h
      have htext : g.output.list KeyEntry.view (ys.filter (Cli.keys.isSelected sel)) =
          g.output.list KeyEntry.view (xs.filter (Cli.keys.isSelected sel)) := by
        rw [← KeyEntry.list_redacted, KeyEntry.filter_redacted, hsame, ← KeyEntry.filter_redacted,
          KeyEntry.list_redacted]
      exact congrArg (Cli.Printed.result g) htext.symm
  single g t {a b} h := by
    cases t with
    | mappings =>
      have hsame : a = b := h
      rw [hsame]
    | keys =>
      have hsame : b.redacted = a.redacted := h
      have htext : g.output.single KeyEntry.view b = g.output.single KeyEntry.view a := by
        rw [← KeyEntry.single_redacted, hsame, KeyEntry.single_redacted]
      exact congrArg (Cli.Printed.result g) htext.symm
  found g t {a b} h := by
    cases t with
    | mappings =>
      have hsame : a = b := h
      rw [hsame]
    | keys =>
      have hsame : b.redacted = a.redacted := h
      have hfound : ∀ k, Cli.keys.printFound g k.redacted = Cli.keys.printFound g k := by
        intro k
        rw [Cli.Rows.printFound, Cli.Rows.printFound]
        cases g.output <;> rfl
      have hprinted : Cli.keys.printFound g b = Cli.keys.printFound g a := by
        rw [← hfound, hsame, hfound]
      exact hprinted.symm
  banner g {S S'} h := by rw [statuses_secretly h]

theorem ending_secretly {P : Unit → Unit → Prop} {x y : Except Cli.Error Unit}
    (h : Paired secretly.CliErrors P x y) : y = x := by
  cases h with
  | ok => rfl
  | error he =>
    cases he with
    | same => rfl
    | @ofService e e' he =>
      have heq : e = e' := he
      rw [heq]

theorem run_secretly (w : Cli.World) (args : List String) (script : List Rpc.Reply)
    (differ : ∀ i u, (Cli.used w args)[i]? = some u →
      DifferInSecrets u (w.network.reply i) ((w.rescripted script).network.reply i)) :
    (Cli.run (w.rescripted script) args).map Cli.Run.unscripted =
      (Cli.run w args).map Cli.Run.unscripted := by
  rcases Likeness.runs_run (w := w) (n := (w.rescripted script).network) lawful_secretly
    prints_secretly rfl (fun i u hu => (differ i u hu).agrees) with
    ⟨u, hu, hu'⟩ | ⟨r, r', hr, hr', hruns⟩
  · have husage : Cli.run (w.rescripted script) args = .error u := hu'
    rw [hu, husage]
  · have hrun : Cli.run (w.rescripted script) args = .ok r' := hr'
    obtain ⟨qs, qs', hsent, hnetwork, hnetwork'⟩ := hruns.sent
    have hprinted : r.printed = r'.printed := hruns.printed
    have houtcome : r'.outcome = r.outcome := ending_secretly hruns.outcome
    have hworld : r'.world.rescripted [] = r.world.rescripted [] := by
      rw [hruns.world, Cli.World.rescripted, Cli.World.rescripted, hnetwork, hnetwork',
        requests_secretly hsent]
      rfl
    rw [hr, hrun]
    exact congrArg Except.ok (by
      rw [Cli.Run.unscripted, Cli.Run.unscripted, hworld, ← hprinted, houtcome])

/-- Two sessions of a service, or two runs of the program, whose stores answer alike but for the
secrets of keys. The answers of the service, its rows and banners, and the requests it sends are the
same but for the secrets of key entries, and so is all that a run prints, how it ends, and what it
sends. Neither the JSON, the stored record, the details nor the line of an entry depends on its
secret. -/
theorem secrets_stay_hidden :
    (∀ (s : Service) (cs : List Service.Call) (script : List Rpc.Reply),
      (∀ i u, (s.used cs)[i]? = some u →
        DifferInSecrets u (s.network.reply i) ((s.rescripted script).network.reply i)) →
      ((s.rescripted script).answers cs).map (Except.map Service.Answer.redacted) =
          (s.answers cs).map (Except.map Service.Answer.redacted) ∧
        ((s.rescripted script).run cs).redacted = (s.run cs).redacted) ∧
    (∀ (w : Cli.World) (args : List String) (script : List Rpc.Reply),
      (∀ i u, (Cli.used w args)[i]? = some u →
        DifferInSecrets u (w.network.reply i) ((w.rescripted script).network.reply i)) →
      (Cli.run (w.rescripted script) args).map Cli.Run.unscripted =
        (Cli.run w args).map Cli.Run.unscripted) ∧
    ∀ k : KeyEntry, k.redacted.toJson = k.toJson ∧ k.redacted.raw = k.raw ∧
      k.redacted.details = k.details ∧ k.redacted.cells = k.cells :=
  ⟨session_secretly, run_secretly, fun _ => ⟨rfl, rfl, rfl, rfl⟩⟩

/-- A document with one key; its records are written as arrays but for the one with the secret. -/
def document : String := "[[[[0,[],[[\"a\",1,\x7b\"key-string\":\"s3cret\"\x7d]]]]]]"

def otherDocument : String := "[[[[0,[],[[\"a\",1,\x7b\"key-string\":\"hunter2\"\x7d]]]]]]"

def oneKey (secret : String) : Stored.Database :=
  ⟨[⟨0, [], [⟨"a", .number (.integer 1), ⟨0, secret⟩⟩]⟩]⟩

theorem differ_documents :
    DifferInSecrets .database (.answer 200 document) (.answer 200 otherDocument) := by
  have hread : Json.decodeText Stored.Database.readDocument document = .ok (oneKey "s3cret") := by
    cbv
  have hread' : Json.decodeText Stored.Database.readDocument otherDocument =
      .ok (oneKey "hunter2") := by cbv
  exact .database (.document rfl hread) (.document rfl hread') rfl

def oneKeyWorld : Cli.World :=
  ⟨[], [], [], "", none, ⟨fun _ => true, [.answer 200 document], []⟩⟩

theorem eq_of_mem_used {s : Service} {t : Topic} {i : Nat} {u : Use}
    (h : (s.used [.refresh t])[i]? = some u) : i = 0 ∧ u = .database := by
  rw [Likeness.used_singleton, List.getElem?_take] at h
  match i, h with
  | 0, h =>
    split_ifs at h
    cases h
    exact ⟨rfl, rfl⟩
  | i + 1, h =>
    split_ifs at h
    cases h

theorem eq_of_mem_listed {script : List Rpc.Reply} {i : Nat} {u : Use}
    (h : (Cli.used (oneKeyWorld.rescripted script) ["keys", "list"])[i]? = some u) :
    i = 0 ∧ u = .database := by
  have hread : Cli.Options.read [] ["keys", "list"] = .ok ⟨⟨none, none, none, none, .table, .auto,
      false, false, false, none⟩, .store (.list .keys ⟨none, none⟩)⟩ := rfl
  rw [Cli.used, show (oneKeyWorld.rescripted script).environment = [] from rfl, hread] at h
  dsimp only [Cli.StoreCommand.used] at h
  split at h
  · cases h
  · exact eq_of_mem_used h

theorem other_secret_hidden :
    (∀ i u, ((Service.scripted [.answer 200 document]).used [.refresh .keys])[i]? = some u →
        DifferInSecrets u ((Service.scripted [.answer 200 document]).network.reply i)
          ((Service.scripted [.answer 200 otherDocument]).network.reply i)) ∧
      ((Service.scripted [.answer 200 otherDocument]).run [.refresh .keys]).redacted =
        ((Service.scripted [.answer 200 document]).run [.refresh .keys]).redacted ∧
      (Cli.run (oneKeyWorld.rescripted [.answer 200 otherDocument]) ["keys", "list"]).map
          Cli.Run.unscripted =
        (Cli.run oneKeyWorld ["keys", "list"]).map Cli.Run.unscripted := by
  have hservice : ∀ i u, ((Service.scripted [.answer 200 document]).used [.refresh .keys])[i]? =
      some u → DifferInSecrets u ((Service.scripted [.answer 200 document]).network.reply i)
        ((Service.scripted [.answer 200 otherDocument]).network.reply i) := by
    intro i u hu
    obtain ⟨rfl, rfl⟩ := eq_of_mem_used hu
    exact differ_documents
  have hrun : ∀ i u, (Cli.used oneKeyWorld ["keys", "list"])[i]? = some u →
      DifferInSecrets u (oneKeyWorld.network.reply i)
        ((oneKeyWorld.rescripted [.answer 200 otherDocument]).network.reply i) := by
    intro i u hu
    obtain ⟨rfl, rfl⟩ := eq_of_mem_listed hu
    exact differ_documents
  obtain ⟨hsession, hprogram, -⟩ := secrets_stay_hidden
  exact ⟨hservice, (hsession _ _ [.answer 200 otherDocument] hservice).2, hprogram _ _ _ hrun⟩

end EidMap
