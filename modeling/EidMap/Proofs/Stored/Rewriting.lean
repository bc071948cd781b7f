import EidMap.Mapping
import EidMap.Proofs.Json.Value
import Mathlib.Data.List.Nodup

/-!
# Records as a row keeps them

A row of the mappings table keeps the record that it was read from, written out again from what was
read. Leaves that a mapping record does not know come through as they were. The known ones get their
first spelling, and are dropped when they say nothing; a locator gets all its leaves and loses those
that it does not know. So the row has the very record of the store only if that was written the same
way.
-/

namespace EidMap.Stored

open Json (Guard Parts Single Spelling bind_eq_ok last? lookup optionalField present renamed
  sortFields)

namespace Locator

/-- The leaves that every locator is written with, and what stands for one that was left out. -/
def leaves : List (String × Json) :=
  [("priority", .ofNat 0), ("weight", .ofNat 0), ("multicastPriority", .ofNat 0),
    ("multicastWeight", .ofNat 0), ("localLocator", .bool false), ("rlocProbed", .bool false),
    ("routed", .bool false), ("rloc", .null)]

def leafNames : List String := "locator-id" :: leaves.map Prod.fst

def leaf? (name : String) : Json → Option Json
  | .object fs => lookup name fs
  | .array xs => xs[leafNames.idxOf name]?
  | _ => none

def keptFields (v : Json) : List (String × Json) :=
  ((leaf? "locator-id" v).bind present).toList.map ("locator-id", ·) ++
    leaves.map fun f => (f.1, (leaf? f.1 v).getD f.2)

/-- A locator as it is kept. -/
def kept (v : Json) : Json := .object (keptFields v)

/-- An object with all the leaves of a locator and no other one; the identifier may be missing, but
is not null. -/
structure Complete (fs : List (String × Json)) : Prop where
  known : ∀ f ∈ fs, f.1 ∈ leafNames
  all : ∀ f ∈ leaves, f.1 ∈ fs.map Prod.fst
  named : ("locator-id", Json.null) ∉ fs

def guards : List (Guard Json) :=
  [idField.guard, priorityField.guard, weightField.guard, multicastPriorityField.guard,
    multicastWeightField.guard, localField.guard, probedField.guard, routedField.guard,
    rlocField.guard]

theorem spelling : Spelling guards fun k => k := by
  apply Json.spelling_of_unaliased
  intro g hg
  simp only [guards, List.mem_cons, List.not_mem_nil, or_false] at hg
  rcases hg with rfl | rfl | rfl | rfl | rfl | rfl | rfl | rfl | rfl <;> rfl

theorem member?_eq_leaf? {v : Json} {p : Parts Json}
    (hp : Json.AreParts guards (fun k => k) v p) (name : String) :
    p.member? name [] = leaf? name v := by
  cases hp with
  | @named fs single => exact Json.find?_unaliased name fs
  | placed kind xs => rfl

theorem toJson_of_read {v : Json} {l : Locator} (h : read v = .ok l) : l.toJson = kept v := by
  obtain ⟨p, hp, h⟩ := Json.areParts_of_record spelling h
  have hp := member?_eq_leaf? hp
  obtain ⟨id, hid, h⟩ := bind_eq_ok.1 h
  obtain ⟨priority, hpriority, h⟩ := bind_eq_ok.1 h
  obtain ⟨weight, hweight, h⟩ := bind_eq_ok.1 h
  obtain ⟨multicastPriority, hmulticastPriority, h⟩ := bind_eq_ok.1 h
  obtain ⟨multicastWeight, hmulticastWeight, h⟩ := bind_eq_ok.1 h
  obtain ⟨localLocator, hlocal, h⟩ := bind_eq_ok.1 h
  obtain ⟨probed, hprobed, h⟩ := bind_eq_ok.1 h
  obtain ⟨routed, hrouted, h⟩ := bind_eq_ok.1 h
  obtain ⟨rloc, hrloc, h⟩ := bind_eq_ok.1 h
  cases h
  have hid := Json.present_of_get_optional Json.eq_of_text hid
  have hrloc := Json.member?_of_get_value hrloc
  have hpriority := Json.getD_of_get_defaulted Json.eq_of_uint8 hpriority
  have hweight := Json.getD_of_get_defaulted Json.eq_of_uint8 hweight
  have hmulticastPriority := Json.getD_of_get_defaulted Json.eq_of_uint8 hmulticastPriority
  have hmulticastWeight := Json.getD_of_get_defaulted Json.eq_of_uint8 hmulticastWeight
  have hlocal := Json.getD_of_get_defaulted Json.eq_of_boolean hlocal
  have hprobed := Json.getD_of_get_defaulted Json.eq_of_boolean hprobed
  have hrouted := Json.getD_of_get_defaulted Json.eq_of_boolean hrouted
  rw [hp] at hid hpriority hweight hmulticastPriority hmulticastWeight hlocal hprobed hrouted hrloc
  have hzero : (0 : UInt8).toNat = 0 := rfl
  rw [hzero] at hpriority hweight hmulticastPriority hmulticastWeight
  simp only [kept, keptFields, leaves, List.map_cons, List.map_nil, hid, hpriority, hweight,
    hmulticastPriority, hmulticastWeight, hlocal, hprobed, hrouted, hrloc, Option.getD_some, toJson]
  cases id <;> rfl

theorem last?_leaves (n : String) : last? n leaves = lookup n leaves :=
  Json.last?_of_count (List.nodup_iff_count_le_one.1 (by decide) n)

theorem last?_keptFields (n : String) (v : Json) :
    last? n (keptFields v) =
      if n = "locator-id" then (leaf? n v).bind present
      else (lookup n leaves).map fun x => (leaf? n v).getD x := by
  rw [keptFields, Json.last?_append, Json.last?_map n fun name x => (leaf? name v).getD x,
    last?_leaves]
  split
  · rename_i hn
    subst hn
    have hno : lookup "locator-id" leaves = none := Json.lookup_eq_none_iff.2 (by decide)
    rw [hno]
    cases (leaf? "locator-id" v).bind present <;> simp
  · rename_i hn
    cases (leaf? "locator-id" v).bind present <;> simp [Ne.symm hn]

theorem Complete.last?_keptFields {fs : List (String × Json)} (h : Complete fs)
    (single : Single leafNames fs) (n : String) : last? n (keptFields (.object fs)) = last? n fs := by
  rw [Locator.last?_keptFields, leaf?]
  by_cases hn : n ∈ leafNames
  · rw [Json.last?_of_count (single n hn)]
    split
    · rename_i hid
      subst hid
      cases hv : lookup "locator-id" fs with
      | none => rfl
      | some v =>
        cases v with
        | null => exact absurd (Json.mem_of_lookup hv) h.named
        | _ => rfl
    · rename_i hid
      have hleaf := (List.mem_cons.1 hn).resolve_left hid
      obtain ⟨x, hx⟩ := Json.exists_lookup hleaf
      obtain ⟨f, hf, rfl⟩ := List.mem_map.1 hleaf
      obtain ⟨v, hv⟩ := Json.exists_lookup (h.all f hf)
      rw [hx, hv]
      rfl
  · have hnone : last? n fs = none := by
      rw [Json.last?_eq_none_iff]
      intro hm
      obtain ⟨f, hf, rfl⟩ := List.mem_map.1 hm
      exact hn (h.known f hf)
    rw [leafNames, List.mem_cons, not_or] at hn
    rw [if_neg hn.1, Json.lookup_eq_none_iff.2 hn.2, hnone]
    rfl

theorem complete_of_ordered {fs : List (String × Json)} (single : Single leafNames fs)
    (h : (kept (.object fs)).ordered = (Json.object fs).ordered) : Complete fs := by
  rw [kept, Json.ordered_object_eq_iff] at h
  simp only [last?_keptFields, leaf?] at h
  refine ⟨fun f hf => ?_, fun f hf => ?_, fun hm => ?_⟩
  · by_contra hno
    rw [leafNames, List.mem_cons, not_or] at hno
    have hn := h f.1
    rw [if_neg hno.1, Json.lookup_eq_none_iff.2 hno.2] at hn
    have hnone : last? f.1 fs = none := by simpa using hn.symm
    exact Json.last?_eq_none_iff.1 hnone (List.mem_map.2 ⟨f, hf, rfl⟩)
  · by_contra hno
    have hid : ∀ f ∈ leaves, f.1 ≠ "locator-id" := by decide
    have hn := h f.1
    rw [if_neg (hid f hf), Json.last?_eq_none_iff.2 hno] at hn
    have hnone : lookup f.1 leaves = none := by simpa using hn
    exact Json.lookup_eq_none_iff.1 hnone (List.mem_map.2 ⟨f, hf, rfl⟩)
  · have hone := single "locator-id" List.mem_cons_self
    have hn := h "locator-id"
    rw [if_pos rfl, Json.last?_of_count hone, Json.lookup_of_mem hone hm] at hn
    cases hn

theorem ordered_kept_iff {v : Json} {l : Locator} (h : read v = .ok l) :
    (kept v).ordered = v.ordered ↔ ∃ fs, v = .object fs ∧ Complete fs := by
  obtain ⟨p, hp, -⟩ := Json.areParts_of_record spelling h
  cases hp with
  | @named fs single =>
    have hrenamed : renamed (fun k => k) fs = fs := List.map_id fs
    rw [hrenamed] at single
    constructor
    · exact fun heq => ⟨fs, rfl, complete_of_ordered single heq⟩
    · rintro ⟨_, he, hcomplete⟩
      cases he
      rw [kept, Json.ordered_object_eq_iff]
      intro n
      rw [hcomplete.last?_keptFields single]
  | placed kind xs =>
    refine iff_of_false ?_ ?_
    · intro heq
      rw [kept, Json.ordered, Json.ordered, Json.ofFields] at heq
      cases heq
    · rintro ⟨fs, he, -⟩
      cases he

end Locator

namespace Record

def leafName : String → String
  | "record-ttl" => "recordTtl"
  | "map-version" => "mapVersion"
  | "locator-record" => "LocatorRecord"
  | name => name

def optionalLeaves : List String :=
  ["recordTtl", "action", "authoritative", "mapVersion", "timestamp", "site-id", "xtr-id"]

def keptLocators : Json → Option Json
  | .array [] => none
  | .array xs => some (.array (xs.map Locator.kept))
  | v => some v

/-- What is kept of the value of a leaf. -/
def keptValue (name : String) (v : Json) : Option Json :=
  if name = "LocatorRecord" then keptLocators v
  else if name ∈ optionalLeaves then present v
  else some v

def keptLeaf (f : String × Json) : Option (String × Json) :=
  (keptValue (leafName f.1) f.2).map (leafName f.1, ·)

/-- A leaf that is kept as it is: in its first spelling, not null where it may be left out, and a
list of locators with at least one, each of them complete. -/
structure Plain (f : String × Json) : Prop where
  spelled : leafName f.1 = f.1
  stated : f.1 ∈ optionalLeaves → f.2 ≠ .null
  complete : f.1 = "LocatorRecord" → ∃ xs, f.2 = .array xs ∧ xs ≠ [] ∧
    ∀ x ∈ xs, ∃ fs, x = .object fs ∧ Locator.Complete fs

def guards : List (Guard Json) :=
  [eidField.guard, recordTtlField.guard, actionField.guard, authoritativeField.guard,
    mapVersionField.guard, timestampField.guard, siteIdField.guard, xtrIdField.guard,
    locatorsField.guard]

def knownNames : List String := "eid" :: optionalLeaves ++ ["LocatorRecord"]

theorem guards_names : guards.map (·.name) = knownNames := rfl

theorem leafName_eq_or (k : String) : leafName k = k ∨ leafName k ∈ guards.map (·.name) := by
  unfold leafName
  split
  · exact .inr (by decide)
  · exact .inr (by decide)
  · exact .inr (by decide)
  · exact .inl rfl

theorem spelling : Spelling guards leafName where
  answers g hg k := by
    simp only [guards, List.mem_cons, List.not_mem_nil, or_false] at hg
    rcases hg with rfl | rfl | rfl | rfl | rfl | rfl | rfl | rfl | rfl
    all_goals
      unfold leafName
      split <;> simp_all [Guard.answers, Json.Field.guard, eidField, recordTtlField, actionField,
        authoritativeField, mapVersionField, timestampField, siteIdField, xtrIdField, locatorsField,
        Json.required, Json.optional, Json.defaulted]
  other := leafName_eq_or

theorem keptValue_of_optional {name : String} (h : name ∈ optionalLeaves) :
    keptValue name = present := by
  have hno : "LocatorRecord" ∉ optionalLeaves := by decide
  have hne : name ≠ "LocatorRecord" := by
    rintro rfl
    exact hno h
  funext v
  rw [keptValue, if_neg hne, if_pos h]

theorem keptValue_locators : keptValue "LocatorRecord" = keptLocators := by
  funext v
  rw [keptValue, if_pos rfl]

theorem keptValue_of_other {name : String} (hne : name ≠ "LocatorRecord")
    (h : name ∉ optionalLeaves) (v : Json) : keptValue name v = some v := by
  rw [keptValue, if_neg hne, if_neg h]

def knownFields (r : Record) : List (String × Json) :=
  [("eid", r.eid)] ++ optionalField "recordTtl" (.ofNat ·.toNat) r.recordTtl ++
    optionalField "action" .string r.action ++ optionalField "authoritative" .bool r.authoritative ++
    optionalField "mapVersion" .ofInt r.mapVersion ++ optionalField "timestamp" .ofInt r.timestamp ++
    optionalField "site-id" .string r.siteId ++ optionalField "xtr-id" .string r.xtrId ++
    listField "LocatorRecord" Locator.toJson r.locators

theorem toJson_eq (r : Record) : r.toJson = .object (knownFields r ++ r.extra) := rfl

@[simp]
theorem last?_optionalField {α : Type} (n name : String) (f : α → Json) (a : Option α) :
    last? n (optionalField name f a) = if name = n then a.map f else none := by
  cases a <;> simp [optionalField]

@[simp]
theorem last?_listField {α : Type} (n name : String) (f : α → Json) (as : List α) :
    last? n (listField name f as) =
      if name = n then if as.isEmpty then none else some (.array (as.map f)) else none := by
  cases as <;> simp [listField]

theorem map_toJson {xs : List Json} {ls : List Locator}
    (h : List.Forall₂ (fun x l => Locator.read x = .ok l) xs ls) :
    ls.map Locator.toJson = xs.map Locator.kept := by
  induction h with
  | nil => rfl
  | cons hl _ ih => rw [List.map_cons, List.map_cons, ih, Locator.toJson_of_read hl]

theorem exists_of_forall₂ {xs : List Json} {ls : List Locator}
    (h : List.Forall₂ (fun x l => Locator.read x = .ok l) xs ls) :
    ∀ x ∈ xs, ∃ l, Locator.read x = .ok l := by
  induction h with
  | nil => exact List.forall_mem_nil _
  | cons hl _ ih => exact List.forall_mem_cons.2 ⟨⟨_, hl⟩, ih⟩

theorem keptLocators_eq {xs : List Json} {ls : List Locator}
    (h : List.Forall₂ (fun x l => Locator.read x = .ok l) xs ls) :
    keptLocators (.array xs) =
      if ls.isEmpty then none else some (.array (ls.map Locator.toJson)) := by
  rw [map_toJson h]
  cases h <;> rfl

section

variable {fs : List (String × Json)}

theorem member?_named {g : Guard Json} (hg : g ∈ guards) :
    (Parts.named fs).member? g.name g.aliases = lookup g.name (renamed leafName fs) :=
  Json.find?_eq_lookup (spelling.answers g hg) fs

theorem eid_of_get {eid : Json} (h : (Parts.named fs).get eidField = .ok eid) :
    lookup "eid" (renamed leafName fs) = some eid := by
  have hmember := @member?_named fs eidField.guard (by simp [guards])
  exact hmember.symm.trans (Json.member?_of_get_value h)

theorem present_of_get {α : Type} {name : String} {aliases : List String} {o : Option α}
    {read : Json → Json.Decoded α} {write : α → Json}
    (hread : ∀ {v a}, read v = .ok a → v = write a)
    (known : (Json.optional name read aliases).guard ∈ guards)
    (h : (Parts.named fs).get (Json.optional name read aliases) = .ok o) :
    (lookup name (renamed leafName fs)).bind present = o.map write := by
  rw [← Json.present_of_get_optional hread h]
  exact congrArg (Option.bind · present) (member?_named known).symm

theorem locators_of_get {ls : List Locator} (h : (Parts.named fs).get locatorsField = .ok ls) :
    (lookup "LocatorRecord" (renamed leafName fs) = none ∧ ls = []) ∨
      ∃ xs, lookup "LocatorRecord" (renamed leafName fs) = some (.array xs) ∧
        List.Forall₂ (fun x l => Locator.read x = .ok l) xs ls := by
  have hmember := @member?_named fs locatorsField.guard (by simp [guards])
  rcases Parts.get_eq_ok h with ⟨v, hv, h⟩ | ⟨hv, h⟩
  · obtain ⟨xs, rfl, hxs⟩ := Json.forall₂_of_list_value h
    exact .inr ⟨xs, hmember.symm.trans hv, hxs⟩
  · cases h
    exact .inl ⟨hmember.symm.trans hv, rfl⟩

end

/-- What is known of a record that was read from an object: under every name what is kept of the one
leaf that the name or its other spelling stands for. -/
structure ReadFrom (fs : List (String × Json)) (r : Record) : Prop where
  single : Single knownNames (renamed leafName fs)
  known : ∀ n ∈ knownNames,
    last? n (knownFields r) = (lookup n (renamed leafName fs)).bind (keptValue n)
  locators : ∀ v, lookup "LocatorRecord" (renamed leafName fs) = some v →
    ∃ xs, v = .array xs ∧ ∀ x ∈ xs, ∃ l, Locator.read x = .ok l
  extra : r.extra = sortFields (fs.filter fun f => !guards.any (·.answers f.1))

theorem readFrom_of_read {v : Json} {r : Record} (h : read v = .ok r) :
    ∃ fs, v = .object fs ∧ ReadFrom fs r := by
  obtain ⟨fs, rfl, hsingle, h⟩ := Json.leaves_of_openRecord spelling h
  obtain ⟨eid, heid, h⟩ := bind_eq_ok.1 h
  obtain ⟨recordTtl, hrecordTtl, h⟩ := bind_eq_ok.1 h
  obtain ⟨action, haction, h⟩ := bind_eq_ok.1 h
  obtain ⟨authoritative, hauthoritative, h⟩ := bind_eq_ok.1 h
  obtain ⟨mapVersion, hmapVersion, h⟩ := bind_eq_ok.1 h
  obtain ⟨timestamp, htimestamp, h⟩ := bind_eq_ok.1 h
  obtain ⟨siteId, hsiteId, h⟩ := bind_eq_ok.1 h
  obtain ⟨xtrId, hxtrId, h⟩ := bind_eq_ok.1 h
  obtain ⟨locators, hlocators, h⟩ := bind_eq_ok.1 h
  cases h
  have heid := eid_of_get heid
  have hrecordTtl := present_of_get Json.eq_of_uint32 (by simp [guards, recordTtlField]) hrecordTtl
  have haction := present_of_get Json.eq_of_text (by simp [guards, actionField]) haction
  have hauthoritative :=
    present_of_get Json.eq_of_boolean (by simp [guards, authoritativeField]) hauthoritative
  have hmapVersion := present_of_get Json.eq_of_int16 (by simp [guards, mapVersionField]) hmapVersion
  have htimestamp := present_of_get Json.eq_of_int64 (by simp [guards, timestampField]) htimestamp
  have hsiteId := present_of_get Json.eq_of_text (by simp [guards, siteIdField]) hsiteId
  have hxtrId := present_of_get Json.eq_of_text (by simp [guards, xtrIdField]) hxtrId
  have hlocators := locators_of_get hlocators
  refine ⟨fs, rfl, hsingle, fun n hn => ?_, fun v hv => ?_, rfl⟩
  · rw [knownNames, List.cons_append, List.mem_cons, List.mem_append, List.mem_singleton] at hn
    rcases hn with rfl | hn | rfl
    · rw [heid, Option.bind_some, keptValue_of_other (by decide) (by decide)]
      simp [knownFields]
    · rw [keptValue_of_optional hn]
      simp only [optionalLeaves, List.mem_cons, List.not_mem_nil, or_false] at hn
      rcases hn with rfl | rfl | rfl | rfl | rfl | rfl | rfl
      · simp [knownFields, hrecordTtl]
      · simp [knownFields, haction]
      · simp [knownFields, hauthoritative]
      · simp [knownFields, hmapVersion]
      · simp [knownFields, htimestamp]
      · simp [knownFields, hsiteId]
      · simp [knownFields, hxtrId]
    · rw [keptValue_locators]
      rcases hlocators with ⟨hno, hnil⟩ | ⟨xs, hxs, hall⟩
      · simp [knownFields, hno, hnil]
      · rw [hxs, Option.bind_some, keptLocators_eq hall]
        simp [knownFields]
  · rcases hlocators with ⟨hno, -⟩ | ⟨xs, hxs, hall⟩
    · rw [hno] at hv
      cases hv
    · rw [hxs] at hv
      cases hv
      exact ⟨xs, rfl, exists_of_forall₂ hall⟩

theorem last?_knownFields {n : String} (h : n ∉ knownNames) (r : Record) :
    last? n (knownFields r) = none := by
  simp only [knownNames, optionalLeaves, List.cons_append, List.nil_append, List.mem_cons,
    List.not_mem_nil, or_false, not_or] at h
  simp [knownFields, h, eq_comm]

theorem keptValue_of_unknown {n : String} (h : n ∉ knownNames) (v : Json) :
    keptValue n v = some v := by
  simp only [knownNames, List.cons_append, List.mem_cons, List.mem_append, List.not_mem_nil,
    or_false, not_or] at h
  exact keptValue_of_other h.2.2 h.2.1 v

theorem last?_keptLeaves {fs : List (String × Json)}
    (h : Single knownNames (renamed leafName fs)) (n : String) :
    last? n (fs.filterMap keptLeaf) = (last? n (renamed leafName fs)).bind (keptValue n) := by
  rw [← Json.last?_filterMap]
  · rw [renamed, List.filterMap_map]
    rfl
  · by_cases hn : n ∈ knownNames
    · exact .inr (h n hn)
    · exact .inl (keptValue_of_unknown hn)

theorem ReadFrom.ordered_toJson {fs : List (String × Json)} {r : Record} (h : ReadFrom fs r) :
    r.toJson.ordered = (Json.object (fs.filterMap keptLeaf)).ordered := by
  rw [toJson_eq, Json.ordered_object_eq_iff]
  intro n
  rw [last?_keptLeaves h.single, Json.last?_append, h.extra, Json.last?_sortFields,
    Json.last?_unknown spelling, guards_names]
  by_cases hn : n ∈ knownNames
  · rw [if_pos hn, h.known n hn, Json.last?_of_count (h.single n hn), Option.none_or]
  · have hsome : keptValue n = some := funext (keptValue_of_unknown hn)
    rw [if_neg hn, last?_knownFields hn, Option.or_none, hsome, Option.bind_fun_some]

theorem leafName_leafName (k : String) : leafName (leafName k) = leafName k := by
  rcases leafName_eq_or k with h | h
  · rw [h, h]
  · have hnames : ∀ n ∈ knownNames, leafName n = n := by decide
    exact hnames _ h

theorem ordered_keptLocators_iff {xs : List Json}
    (h : ∀ x ∈ xs, ∃ l, Locator.read x = .ok l) :
    (keptLocators (.array xs)).map Json.ordered = some (Json.array xs).ordered ↔
      xs ≠ [] ∧ ∀ x ∈ xs, ∃ fs, x = .object fs ∧ Locator.Complete fs := by
  cases xs with
  | nil => simp [keptLocators]
  | cons x xs =>
    rw [keptLocators, Option.map_some, Option.some_inj, Json.ordered, Json.ordered,
      Json.orderedItems_eq, Json.orderedItems_eq, Json.array.injEq, List.map_map, List.map_inj_left]
    · constructor
      · intro heq
        refine ⟨nofun, fun y hy => ?_⟩
        obtain ⟨l, hl⟩ := h y hy
        exact (Locator.ordered_kept_iff hl).1 (heq y hy)
      · rintro ⟨-, hall⟩ y hy
        obtain ⟨l, hl⟩ := h y hy
        exact (Locator.ordered_kept_iff hl).2 (hall y hy)
    · exact nofun

theorem ordered_present_iff (v : Json) :
    (present v).map Json.ordered = some v.ordered ↔ v ≠ .null := by
  cases v <;> simp [present]

theorem plain_iff {f : String × Json}
    (h : f.1 = "LocatorRecord" → ∃ xs, f.2 = .array xs ∧ ∀ x ∈ xs, ∃ l, Locator.read x = .ok l) :
    Plain f ↔ leafName f.1 = f.1 ∧ (keptValue f.1 f.2).map Json.ordered = some f.2.ordered := by
  obtain ⟨k, v⟩ := f
  by_cases hlocators : k = "LocatorRecord"
  · subst hlocators
    obtain ⟨xs, hv, hread⟩ := h rfl
    have hv : v = .array xs := hv
    subst hv
    rw [keptValue_locators, ordered_keptLocators_iff hread]
    constructor
    · rintro ⟨hspelled, -, hcomplete⟩
      obtain ⟨ys, he, hys⟩ := hcomplete rfl
      cases he
      exact ⟨hspelled, hys⟩
    · rintro ⟨hspelled, hxs⟩
      have hno : "LocatorRecord" ∉ optionalLeaves := by decide
      exact ⟨hspelled, fun hk => absurd hk hno, fun _ => ⟨xs, rfl, hxs⟩⟩
  · by_cases hoptional : k ∈ optionalLeaves
    · rw [keptValue_of_optional hoptional, ordered_present_iff]
      exact ⟨fun hp => ⟨hp.spelled, hp.stated hoptional⟩,
        fun hp => ⟨hp.1, fun _ => hp.2, fun hk => absurd hk hlocators⟩⟩
    · rw [keptValue_of_other hlocators hoptional]
      exact ⟨fun hp => ⟨hp.spelled, rfl⟩,
        fun hp => ⟨hp.1, fun hk => absurd hk hoptional, fun hk => absurd hk hlocators⟩⟩

theorem ReadFrom.locators_of_mem {fs : List (String × Json)} {r : Record} (h : ReadFrom fs r)
    {f : String × Json} (hf : f ∈ fs) (hk : f.1 = "LocatorRecord") :
    ∃ xs, f.2 = .array xs ∧ ∀ x ∈ xs, ∃ l, Locator.read x = .ok l := by
  apply h.locators
  apply Json.lookup_of_mem (h.single _ (by decide))
  refine List.mem_map.2 ⟨f, hf, ?_⟩
  rw [hk]
  rfl

theorem renamed_eq {fs : List (String × Json)} (h : ∀ f ∈ fs, leafName f.1 = f.1) :
    renamed leafName fs = fs := by
  refine (List.map_congr_left fun f hf => ?_).trans (List.map_id fs)
  rw [h f hf]
  rfl

theorem ReadFrom.ordered_toJson_iff {fs : List (String × Json)} {r : Record} (h : ReadFrom fs r) :
    r.toJson.ordered = (Json.object fs).ordered ↔ ∀ f ∈ fs, Plain f := by
  rw [h.ordered_toJson, Json.ordered_object_eq_iff]
  simp only [last?_keptLeaves h.single]
  constructor
  · intro heq
    have hspelled : ∀ f ∈ fs, leafName f.1 = f.1 := by
      intro f hf
      by_contra hne
      -- nothing is kept under a second spelling
      have habsent : last? f.1 (renamed leafName fs) = none := by
        rw [Json.last?_eq_none_iff]
        intro hm
        obtain ⟨_, hg, hname⟩ := List.mem_map.1 hm
        obtain ⟨g, -, rfl⟩ := List.mem_map.1 hg
        apply hne
        rw [← show leafName g.1 = f.1 from hname, leafName_leafName]
      have hn := heq f.1
      rw [habsent, Option.bind_none, Option.map_none, eq_comm, Option.map_eq_none_iff,
        Json.last?_eq_none_iff] at hn
      exact hn (List.mem_map.2 ⟨f, hf, rfl⟩)
    have hsingle := h.single
    rw [renamed_eq hspelled] at heq hsingle
    intro f hf
    rw [plain_iff (h.locators_of_mem hf)]
    refine ⟨hspelled f hf, ?_⟩
    by_cases hn : f.1 ∈ knownNames
    · have hlast : last? f.1 fs = some f.2 := by
        rw [Json.last?_of_count (hsingle f.1 hn), Json.lookup_of_mem (hsingle f.1 hn) hf]
      have hn := heq f.1
      rwa [hlast] at hn
    · rw [keptValue_of_unknown hn]
      rfl
  · intro hplain n
    rw [renamed_eq fun f hf => (hplain f hf).spelled]
    cases hv : last? n fs with
    | none => rfl
    | some v =>
      have hmem := Json.mem_of_last? hv
      exact ((plain_iff (h.locators_of_mem hmem)).1 (hplain _ hmem)).2

end Record

namespace Mapping

def guards : List (Guard Json) := [eidUriField.guard, originField.guard, recordField.guard]

theorem spelling : Spelling guards fun k => k := by
  apply Json.spelling_of_unaliased
  intro g hg
  simp only [guards, List.mem_cons, List.not_mem_nil, or_false] at hg
  rcases hg with rfl | rfl | rfl <;> rfl

theorem record_of_read {fs : List (String × Json)} {m : Mapping}
    (h : read (Json.object fs) = .ok m) :
    ∃ v, lookup "mapping-record" fs = some v ∧ Record.read v = .ok m.record := by
  obtain ⟨p, hp, h⟩ := Json.areParts_of_record spelling h
  obtain ⟨uri, -, h⟩ := bind_eq_ok.1 h
  obtain ⟨origin, -, h⟩ := bind_eq_ok.1 h
  obtain ⟨r, hr, h⟩ := bind_eq_ok.1 h
  cases h
  cases hp with
  | named single =>
    rcases Parts.get_eq_ok hr with ⟨v, hv, hr⟩ | ⟨-, h⟩
    · exact ⟨v, (Json.find?_unaliased "mapping-record" fs).symm.trans hv, hr⟩
    · cases h

end Mapping

end EidMap.Stored

namespace EidMap.Mapping

open Stored (Record)

/-- The record that a row keeps has the leaves of the record it was read from as they are kept: up
to the order of the fields it is the very record of the store exactly if every leaf of that is
plain. -/
theorem raw_of_read {fs : List (String × Json)} {m : Stored.Mapping}
    (h : Stored.Mapping.read (Json.object fs) = .ok m) (vni : UInt32) :
    ∃ leaves, Json.lookup "mapping-record" fs = some (.object leaves) ∧
      (ofStored vni m).raw = (Json.object (leaves.filterMap Record.keptLeaf)).ordered ∧
        ((ofStored vni m).raw = (Json.object leaves).ordered ↔ ∀ f ∈ leaves, Record.Plain f) := by
  obtain ⟨v, hv, hr⟩ := Stored.Mapping.record_of_read h
  obtain ⟨leaves, rfl, hleaves⟩ := Record.readFrom_of_read hr
  exact ⟨leaves, hv, hleaves.ordered_toJson, hleaves.ordered_toJson_iff⟩

/-- A record with a leaf that is not known is kept as it is. -/
theorem plain_record_kept :
    ∃ m, Stored.Mapping.read (Json.object [("eid-uri", .string "a"),
          ("mapping-record", .object [("eid", .ofNat 1), ("note", .null)])]) = .ok m ∧
      (ofStored 7 m).raw = .object [("eid", .ofNat 1), ("note", .null)] := by
  refine ⟨_, rfl, ?_⟩
  obtain ⟨leaves, hleaves, -, hplain⟩ := @raw_of_read [("eid-uri", .string "a"),
    ("mapping-record", .object [("eid", .ofNat 1), ("note", .null)])] _ rfl 7
  cases hleaves
  refine (hplain.2 fun f hf => ?_).trans rfl
  have hno : "eid" ∉ Record.optionalLeaves ∧ "note" ∉ Record.optionalLeaves := by decide
  rcases List.mem_pair.1 hf with rfl | rfl
  · exact ⟨rfl, fun h => absurd h hno.1, nofun⟩
  · exact ⟨rfl, fun h => absurd h hno.2, nofun⟩

/-- A leaf that a locator does not know is lost, and leaves that it was sent without are added. -/
theorem stray_locator_leaf_lost :
    ∃ m, Stored.Mapping.read (Json.object [("eid-uri", .string "a"),
          ("mapping-record", .object [("LocatorRecord", .array [.object [("hop-count", .ofNat 7),
            ("rloc", .ofNat 2)]]), ("eid", .ofNat 1)])]) = .ok m ∧
      (ofStored 0 m).raw = .object [("LocatorRecord", .array [.object [("localLocator", .bool false),
          ("multicastPriority", .ofNat 0), ("multicastWeight", .ofNat 0), ("priority", .ofNat 0),
          ("rloc", .ofNat 2), ("rlocProbed", .bool false), ("routed", .bool false),
          ("weight", .ofNat 0)]]), ("eid", .ofNat 1)] ∧
        (ofStored 0 m).raw ≠ .object [("LocatorRecord", .array [.object [("hop-count", .ofNat 7),
          ("rloc", .ofNat 2)]]), ("eid", .ofNat 1)] := by
  refine ⟨_, rfl, rfl, fun he => ?_⟩
  have hparts : [8] = [2] := congrArg
    (fun v => ((v.field? "LocatorRecord").elim [] Json.parts).map fun l => l.parts.length) he
  cases hparts

end EidMap.Mapping
