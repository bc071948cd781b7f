import EidMap.Proofs.Json.Masking
import EidMap.Proofs.Rpc.Exchange

/-!
# Reading the store without its secrets

Whether a document of the store can be read, what is wrong with it if not, and the identifiers that
are found in it do not depend on its secrets; nor do the messages of an error document.
-/

namespace EidMap

open Json (Any Blind Doc Field)

namespace Stored

theorem Locator.blind_read : Blind (read : Doc → _) Any := by
  have id : (idField : Field Doc _).Blind Any := Json.blind_text.option.anyField rfl
  have priority : (priorityField : Field Doc _).Blind Any := Json.blind_uint8.anyField rfl
  have weight : (weightField : Field Doc _).Blind Any := Json.blind_uint8.anyField rfl
  have multicastPriority : (multicastPriorityField : Field Doc _).Blind Any :=
    Json.blind_uint8.anyField rfl
  have multicastWeight : (multicastWeightField : Field Doc _).Blind Any :=
    Json.blind_uint8.anyField rfl
  have localLocator : (localField : Field Doc _).Blind Any := Json.blind_boolean.anyField rfl
  have probed : (probedField : Field Doc _).Blind Any := Json.blind_boolean.anyField rfl
  have routed : (routedField : Field Doc _).Blind Any := Json.blind_boolean.anyField rfl
  have rloc : (rlocField : Field Doc _).Blind Any := Json.blind_value.anyField rfl
  refine Json.blind_record ?_ fun p => ?_
  · simp only [List.forall_mem_cons, List.not_mem_nil, false_implies, implies_true, and_true]
    exact ⟨id.guard, priority.guard, weight.guard, multicastPriority.guard, multicastWeight.guard,
      localLocator.guard, probed.guard, routed.guard, rloc.guard⟩
  refine (id.get p).bind fun _ _ _ => ?_
  refine (priority.get p).bind fun _ _ _ => ?_
  refine (weight.get p).bind fun _ _ _ => ?_
  refine (multicastPriority.get p).bind fun _ _ _ => ?_
  refine (multicastWeight.get p).bind fun _ _ _ => ?_
  refine (localLocator.get p).bind fun _ _ _ => ?_
  refine (probed.get p).bind fun _ _ _ => ?_
  refine (routed.get p).bind fun _ _ _ => ?_
  exact (rloc.get p).bind fun _ _ _ => .ok trivial

theorem Record.blind_read : Blind (read : Doc → _) Any := by
  have eid : (eidField : Field Doc _).Blind Any := Json.blind_value.anyField rfl
  have recordTtl : (recordTtlField : Field Doc _).Blind Any := Json.blind_uint32.option.anyField rfl
  have action : (actionField : Field Doc _).Blind Any := Json.blind_text.option.anyField rfl
  have authoritative : (authoritativeField : Field Doc _).Blind Any :=
    Json.blind_boolean.option.anyField rfl
  have mapVersion : (mapVersionField : Field Doc _).Blind Any :=
    Json.blind_int16.option.anyField rfl
  have timestamp : (timestampField : Field Doc _).Blind Any := Json.blind_int64.option.anyField rfl
  have siteId : (siteIdField : Field Doc _).Blind Any := Json.blind_text.option.anyField rfl
  have xtrId : (xtrIdField : Field Doc _).Blind Any := Json.blind_text.option.anyField rfl
  have locators : (locatorsField : Field Doc _).Blind Any := Locator.blind_read.list.anyField rfl
  refine Json.blind_openRecord ?_ fun p _ _ => ?_
  · simp only [List.forall_mem_cons, List.not_mem_nil, false_implies, implies_true, and_true]
    exact ⟨eid.guard, recordTtl.guard, action.guard, authoritative.guard, mapVersion.guard,
      timestamp.guard, siteId.guard, xtrId.guard, locators.guard⟩
  refine (eid.get p).bind fun _ _ _ => ?_
  refine (recordTtl.get p).bind fun _ _ _ => ?_
  refine (action.get p).bind fun _ _ _ => ?_
  refine (authoritative.get p).bind fun _ _ _ => ?_
  refine (mapVersion.get p).bind fun _ _ _ => ?_
  refine (timestamp.get p).bind fun _ _ _ => ?_
  refine (siteId.get p).bind fun _ _ _ => ?_
  refine (xtrId.get p).bind fun _ _ _ => ?_
  exact (locators.get p).bind fun _ _ _ => .ok trivial

theorem Mapping.blind_read : Blind (read : Doc → _) fun m m' => m'.eidUri = m.eidUri := by
  have eidUri : (eidUriField : Field Doc _).Blind Eq := Json.blind_text.field rfl fun _ _ => rfl
  have origin : (originField : Field Doc _).Blind Any := Json.blind_text.option.anyField rfl
  have record : (recordField : Field Doc _).Blind Any := Record.blind_read.anyField rfl
  refine Json.blind_record ?_ fun p => ?_
  · simp only [List.forall_mem_cons, List.not_mem_nil, false_implies, implies_true, and_true]
    exact ⟨eidUri.guard, origin.guard, record.guard⟩
  refine (eidUri.get p).bind fun _ _ huri => ?_
  refine (origin.get p).bind fun _ _ _ => ?_
  exact (record.get p).bind fun _ _ _ => .ok huri.symm

theorem Secret.blind_read : Blind (read : Doc → _) Any := by
  have type : (typeField : Field Doc _).Blind Any := Json.blind_uint16.anyField rfl
  have text : (textField : Field Doc _).Blind Any :=
    ⟨Json.blind_text.any, fun key d _ => Json.text_hidden key d, fun _ _ => trivial⟩
  refine Json.blind_record ?_ fun p => ?_
  · simp only [List.forall_mem_cons, List.not_mem_nil, false_implies, implies_true, and_true]
    exact ⟨type.guard, text.guard⟩
  refine (type.get p).bind fun _ _ _ => ?_
  exact (text.get p).bind fun _ _ _ => .ok trivial

theorem Key.blind_read : Blind (read : Doc → _) fun k k' => k'.eidUri = k.eidUri := by
  have eidUri : (eidUriField : Field Doc _).Blind Eq := Json.blind_text.field rfl fun _ _ => rfl
  have eid : (eidField : Field Doc _).Blind Any := Json.blind_value.anyField rfl
  have secret : (secretField : Field Doc _).Blind Any := Secret.blind_read.anyField rfl
  refine Json.blind_record ?_ fun p => ?_
  · simp only [List.forall_mem_cons, List.not_mem_nil, false_implies, implies_true, and_true]
    exact ⟨eidUri.guard, eid.guard, secret.guard⟩
  refine (eidUri.get p).bind fun _ _ huri => ?_
  refine (eid.get p).bind fun _ _ _ => ?_
  exact (secret.get p).bind fun _ _ _ => .ok huri.symm

def Network.identifiers (n : Network) : List String × List String :=
  (n.mappings.map Mapping.eidUri, n.keys.map Key.eidUri)

def Database.identifiers (d : Database) : List (List String × List String) :=
  d.networks.map Network.identifiers

theorem Network.blind_read :
    Blind (read : Doc → _) fun n n' => n'.identifiers = n.identifiers := by
  have vni : (vniField : Field Doc _).Blind Any := Json.blind_uint32.anyField rfl
  have mappings := Json.Blind.field (f := mappingsField) Mapping.blind_read.list rfl
    fun _ _ => List.forall₂_same.2 fun _ _ => rfl
  have keys := Json.Blind.field (f := keysField) Key.blind_read.list rfl
    fun _ _ => List.forall₂_same.2 fun _ _ => rfl
  refine Json.blind_record ?_ fun p => ?_
  · simp only [List.forall_mem_cons, List.not_mem_nil, false_implies, implies_true, and_true]
    exact ⟨vni.guard, mappings.guard, keys.guard⟩
  refine (vni.get p).bind fun _ _ _ => ?_
  refine (mappings.get p).bind fun _ _ hmappings => ?_
  refine (keys.get p).bind fun _ _ hkeys => .ok ?_
  rw [identifiers, identifiers, map_eq_of_forall₂ hmappings, map_eq_of_forall₂ hkeys]

theorem Database.blind_read :
    Blind (read : Doc → _) fun d d' => d'.identifiers = d.identifiers := by
  have networks := Json.Blind.field (f := networksField) Network.blind_read.list rfl
    fun _ _ => List.forall₂_same.2 fun _ _ => rfl
  refine Json.blind_record (List.forall_mem_singleton.2 networks.guard) fun p => ?_
  exact (networks.get p).bind fun _ _ h => .ok (map_eq_of_forall₂ h)

theorem Database.blind_readDocument :
    Blind (readDocument : Doc → _) fun d d' => d'.identifiers = d.identifiers := by
  have database := Json.Blind.field (f := databaseField) Database.blind_read rfl fun _ _ => rfl
  exact Json.blind_record (List.forall_mem_singleton.2 database.guard) fun p => database.get p

end Stored

namespace Rpc

open Client (readFound readOutput)

variable {α : Type} {R : α → α → Prop}

theorem Client.blind_readOutput {read : Doc → Json.Decoded α} (h : Blind read R) {absent : α}
    (habsent : R absent absent) : Blind (readOutput read absent) R := by
  have output := Json.Blind.field (f := Json.defaulted "output" read absent) h rfl
    fun a ha => Option.some.inj ha ▸ habsent
  exact Json.blind_record (List.forall_mem_singleton.2 output.guard) fun p => output.get p

theorem Client.blind_readFound (kind : String) {found : Field Doc (Option α)}
    (h : found.Blind (Option.Rel R)) : Blind (readFound kind found) (Option.Rel R) :=
  blind_readOutput (Json.blind_record (List.forall_mem_singleton.2 h.guard) fun p => h.get p) .none

namespace ErrorEntry

theorem blind_optionalText : Blind (Json.option Json.text) Eq := fun d =>
  (Json.blind_text.option d).mono fun _ _ h => by
    cases h with
    | some h => exact congrArg some h
    | none => rfl

theorem blind_read : Blind read Eq := by
  have tag := Json.Blind.field (f := tagField) blind_optionalText rfl fun _ _ => rfl
  have message := Json.Blind.field (f := messageField) blind_optionalText rfl fun _ _ => rfl
  refine Json.blind_record ?_ fun p => ?_
  · simp only [List.forall_mem_cons, List.not_mem_nil, false_implies, implies_true, and_true]
    exact ⟨tag.guard, message.guard⟩
  refine (tag.get p).bind fun _ _ htag => ?_
  refine (message.get p).bind fun _ _ hmessage => .ok ?_
  rw [htag, hmessage]

theorem blind_readList : Blind readList Eq := by
  have hlist : Blind (Json.list read) Eq := fun d =>
    (blind_read.list d).mono fun _ _ h => List.forall₂_eq_eq_eq ▸ h
  have entries := Json.Blind.field (f := entriesField) hlist rfl fun _ _ => rfl
  exact Json.blind_record (List.forall_mem_singleton.2 entries.guard) fun p => entries.get p

theorem blind_readDocument : Blind readDocument Eq := by
  have errors := Json.Blind.field (f := errorsField) blind_readList rfl fun _ _ => rfl
  exact Json.blind_record (List.forall_mem_singleton.2 errors.guard) fun p => errors.get p

end ErrorEntry

theorem errorMessages_of_sameButSecrets {s s' : String} (same : Json.SameButSecrets s s') :
    errorMessages s' = errorMessages s := by
  have h := ErrorEntry.blind_readDocument.decodeText (Q := Eq) (fun _ _ _ h h' => h.trans h'.symm)
    same
  rw [errorMessages, errorMessages]
  generalize Json.decodeText ErrorEntry.readDocument s = x at h ⊢
  generalize Json.decodeText ErrorEntry.readDocument s' = x' at h ⊢
  cases h with
  | ok h => rw [h]
  | error => rfl

end Rpc

end EidMap
