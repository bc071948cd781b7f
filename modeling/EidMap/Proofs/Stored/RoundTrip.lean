import EidMap.Proofs.Json.Reordering
import EidMap.Proofs.Stored.Entries
import EidMap.Proofs.Stored.Rewriting

/-!
# Documents written and read again

Every record of the store is read from what is written for it, field by field. A mapping record is
the exception: some records cannot come out of a document, such as one that keeps a known leaf among
the unknown ones. Those that do come out are regular, and for them nothing collides.

The order of the fields does not matter: a document that was read is written to one with all its
records, as it stands and in order.
-/

namespace EidMap.Stored

open Json (Arranges Checked Decoded Field Guard Parts Spelling bind_eq_ok check_guard get_named
  last? lookup optionalField record_object renamed)

section Fields

variable {α : Type}

theorem forall_mem_optionalField {p : String × Json → Prop} {name : String} {f : α → Json}
    {a : Option α} (h : ∀ b ∈ a, p (name, f b)) : ∀ x ∈ optionalField name f a, p x := by
  cases a with
  | none => exact List.forall_mem_nil _
  | some b => exact List.forall_mem_singleton.2 (h b rfl)

theorem forall_mem_listField {p : String × Json → Prop} {name : String} {f : α → Json} {as : List α}
    (h : p (name, .array (as.map f))) : ∀ x ∈ listField name f as, p x := by
  cases as with
  | nil => exact List.forall_mem_nil _
  | cons a as => exact List.forall_mem_singleton.2 h

theorem sublist_optionalField (name : String) (f : α → Json) (a : Option α) :
    ((optionalField name f a).map Prod.fst).Sublist [name] := by
  cases a <;> simp [optionalField]

theorem sublist_listField (name : String) (f : α → Json) (as : List α) :
    ((listField name f as).map Prod.fst).Sublist [name] := by
  cases as <;> simp [listField]

theorem option_of_read {read : Json → Decoded α} {v : Json} {a : α} (h : read v = .ok a)
    (hv : v ≠ .null) : Json.option read v = .ok (some a) := by
  cases v with
  | null => exact absurd rfl hv
  | _ => exact Json.map_eq_ok.2 ⟨a, h, rfl⟩

theorem get_of_optionalField {f : Field Json (Option α)} {read : Json → Decoded α} {write : α → Json}
    {fs : List (String × Json)} {o : Option α} (hf : f.read = Json.option read)
    (absent : f.absent = some none) (hread : ∀ a ∈ o, read (write a) = .ok a)
    (hnull : ∀ a, write a ≠ .null) (h : Parts.find? f.name f.aliases fs = o.map write) :
    (Parts.named fs).get f = .ok o := by
  cases o with
  | none => exact Json.get_named_absent h absent
  | some a =>
    rw [get_named h, hf]
    exact option_of_read (hread a rfl) (hnull a)

theorem get_of_listField {f : Field Json (List α)} {read : Json → Decoded α} {write : α → Json}
    {fs : List (String × Json)} {as : List α} (hf : f.read = Json.list read)
    (absent : f.absent = some []) (hread : ∀ a ∈ as, read (write a) = .ok a)
    (h : Parts.find? f.name f.aliases fs =
      if as.isEmpty then none else some (.array (as.map write))) :
    (Parts.named fs).get f = .ok as := by
  cases as with
  | nil => exact Json.get_named_absent h absent
  | cons a as =>
    rw [get_named h, hf]
    have heach := Json.each_map (f := id) hread
    rw [List.map_id] at heach
    exact Json.list_array heach

end Fields

namespace Locator

def fields (l : Locator) : List (String × Json) :=
  optionalField "locator-id" .string l.id ++
    [("priority", .ofNat l.priority.toNat), ("weight", .ofNat l.weight.toNat),
      ("multicastPriority", .ofNat l.multicastPriority.toNat),
      ("multicastWeight", .ofNat l.multicastWeight.toNat), ("localLocator", .bool l.localLocator),
      ("rlocProbed", .bool l.probed), ("routed", .bool l.routed), ("rloc", l.rloc)]

theorem passes_fields (l : Locator) : Json.Passes guards [] l.fields := by
  refine Json.passes_of_distinct (List.forall_mem_append.2 ⟨?_, ?_⟩) ?_
  · exact forall_mem_optionalField fun s _ =>
      ⟨_, rfl, rfl, check_guard (Json.option_text_string s)⟩
  · simp only [List.forall_mem_cons, List.not_mem_nil, false_implies, implies_true, and_true]
    exact ⟨⟨_, rfl, rfl, check_guard (Json.uint8_ofNat _)⟩,
      ⟨_, rfl, rfl, check_guard (Json.uint8_ofNat _)⟩,
      ⟨_, rfl, rfl, check_guard (Json.uint8_ofNat _)⟩,
      ⟨_, rfl, rfl, check_guard (Json.uint8_ofNat _)⟩, ⟨_, rfl, rfl, rfl⟩, ⟨_, rfl, rfl, rfl⟩,
      ⟨_, rfl, rfl, rfl⟩, ⟨_, rfl, rfl, rfl⟩⟩
  · have hnames : leafNames.Nodup := by decide
    rw [List.nil_append, List.map_append]
    exact ((sublist_optionalField _ _ l.id).append (.refl _)).nodup hnames

theorem read_toJson (l : Locator) : read l.toJson = .ok l := by
  refine (record_object l.passes_fields).trans ?_
  have hid : (Parts.named l.fields).get idField = .ok l.id := by
    refine Json.get_optional Json.option_text_string ?_
    rw [fields]
    cases l.id <;> rfl
  rw [hid]
  obtain ⟨id, priority, weight, multicastPriority, multicastWeight, localLocator, probed, routed,
    rloc⟩ := l
  cases id
  all_goals
    rw [get_named rfl, get_named rfl, get_named rfl, get_named rfl, get_named rfl, get_named rfl,
      get_named rfl, get_named rfl]
    simp only [priorityField, weightField, multicastPriorityField, multicastWeightField, localField,
      probedField, routedField, rlocField, Json.defaulted, Json.required, Json.uint8_ofNat]
    rfl

def arranged (l : Locator) : Locator := { l with rloc := l.rloc.ordered }

theorem steady : ∀ g ∈ guards, Guard.Steady g := by
  simp only [guards, List.forall_mem_cons, List.not_mem_nil, false_implies, implies_true, and_true]
  exact ⟨Json.arranges_text.option.steady, Json.arranges_uint8.steady, Json.arranges_uint8.steady,
    Json.arranges_uint8.steady, Json.arranges_uint8.steady, Json.arranges_boolean.steady,
    Json.arranges_boolean.steady, Json.arranges_boolean.steady, Json.arranges_value.steady⟩

theorem arranges_read : Arranges read arranged := by
  refine Json.arranges_record spelling steady fun hp h => ?_
  refine Json.bind_arranged spelling hp h (by simp [guards]) Json.arranges_text.option
    (fun _ _ => rfl) fun id h => ?_
  refine Json.bind_arranged spelling hp h (by simp [guards]) Json.arranges_uint8
    (fun _ _ => rfl) fun priority h => ?_
  refine Json.bind_arranged spelling hp h (by simp [guards]) Json.arranges_uint8
    (fun _ _ => rfl) fun weight h => ?_
  refine Json.bind_arranged spelling hp h (by simp [guards]) Json.arranges_uint8
    (fun _ _ => rfl) fun multicastPriority h => ?_
  refine Json.bind_arranged spelling hp h (by simp [guards]) Json.arranges_uint8
    (fun _ _ => rfl) fun multicastWeight h => ?_
  refine Json.bind_arranged spelling hp h (by simp [guards]) Json.arranges_boolean
    (fun _ _ => rfl) fun localLocator h => ?_
  refine Json.bind_arranged spelling hp h (by simp [guards]) Json.arranges_boolean
    (fun _ _ => rfl) fun probed h => ?_
  refine Json.bind_arranged spelling hp h (by simp [guards]) Json.arranges_boolean
    (fun _ _ => rfl) fun routed h => ?_
  refine Json.bind_arranged spelling hp h (by simp [guards]) Json.arranges_value
      (fun _ h => by cases h) fun rloc h => ?_
  cases h
  rfl

end Locator

namespace Record

/-- A record that a document can hold: its numbers are in range, and the unknown leaves are in order
and really unknown. -/
structure Regular (r : Record) : Prop where
  mapVersion : ∀ z ∈ r.mapVersion, Json.int16 (Json.ofInt z) = .ok z
  timestamp : ∀ z ∈ r.timestamp, Json.int64 (Json.ofInt z) = .ok z
  ascending : Json.Ascending r.extra
  unknown : ∀ f ∈ r.extra, guards.any (·.answers f.1) = false

theorem read_of_get_optional {α : Type} {p : Parts Json} {name : String} {aliases : List String}
    {read : Json → Decoded α} {write : α → Json}
    (hread : ∀ {v a}, read v = .ok a → v = write a) {o : Option α}
    (h : p.get (Json.optional name read aliases) = .ok o) : ∀ a ∈ o, read (write a) = .ok a := by
  rintro a rfl
  rcases Parts.get_eq_ok h with ⟨v, -, h⟩ | ⟨-, h⟩
  · cases v with
    | null => cases h
    | _ =>
      obtain ⟨b, hb, h⟩ := Json.map_eq_ok.1 h
      cases h
      rw [← hread hb]
      exact hb
  · cases h

theorem regular_of_read {v : Json} {r : Record} (h : read v = .ok r) : r.Regular := by
  obtain ⟨fs, -, -, h⟩ := Json.leaves_of_openRecord spelling h
  obtain ⟨eid, -, h⟩ := bind_eq_ok.1 h
  obtain ⟨recordTtl, -, h⟩ := bind_eq_ok.1 h
  obtain ⟨action, -, h⟩ := bind_eq_ok.1 h
  obtain ⟨authoritative, -, h⟩ := bind_eq_ok.1 h
  obtain ⟨mapVersion, hmapVersion, h⟩ := bind_eq_ok.1 h
  obtain ⟨timestamp, htimestamp, h⟩ := bind_eq_ok.1 h
  obtain ⟨siteId, -, h⟩ := bind_eq_ok.1 h
  obtain ⟨xtrId, -, h⟩ := bind_eq_ok.1 h
  obtain ⟨locators, -, h⟩ := bind_eq_ok.1 h
  cases h
  refine ⟨read_of_get_optional Json.eq_of_int16 hmapVersion,
    read_of_get_optional Json.eq_of_int64 htimestamp, Json.ascending_sortFields _, fun f hf => ?_⟩
  simpa using (List.mem_filter.1 (Json.mem_of_mem_sortFields hf)).2

def fields (r : Record) : List (String × Json) := knownFields r ++ r.extra

theorem sublist_knownFields (r : Record) :
    ((knownFields r).map Prod.fst).Sublist knownNames := by
  simp only [knownFields, List.map_append]
  exact .append (.append (.append (.append (.append (.append (.append (.append (.refl _)
    (sublist_optionalField ..)) (sublist_optionalField ..)) (sublist_optionalField ..))
    (sublist_optionalField ..)) (sublist_optionalField ..)) (sublist_optionalField ..))
    (sublist_optionalField ..)) (sublist_listField ..)

namespace Regular

variable {r : Record} (h : r.Regular)

include h

theorem leafName_extra {f : String × Json} (hf : f ∈ r.extra) :
    leafName f.1 = f.1 ∧ f.1 ∉ knownNames := by
  have hknown : leafName f.1 ∉ guards.map (·.name) := by
    intro hmem
    obtain ⟨g, hg, hname⟩ := List.mem_map.1 hmem
    have hanswers := List.any_eq_false.1 (h.unknown f hf) g hg
    rw [spelling.answers g hg, beq_iff_eq] at hanswers
    exact hanswers hname.symm
  have hsame := (leafName_eq_or f.1).resolve_right hknown
  exact ⟨hsame, hsame ▸ hknown⟩

theorem renamed_fields : renamed leafName r.fields = r.fields := by
  apply renamed_eq
  refine List.forall_mem_append.2 ⟨fun f hf => ?_, fun f hf => (h.leafName_extra hf).1⟩
  have hnames : ∀ n ∈ knownNames, leafName n = n := by decide
  exact hnames _ ((sublist_knownFields r).subset (List.mem_map_of_mem hf))

theorem count_fields {n : String} (hn : n ∈ knownNames) : (r.fields.map Prod.fst).count n ≤ 1 := by
  have hnames : knownNames.Nodup := by decide
  have hextra : n ∉ r.extra.map Prod.fst := by
    intro hmem
    obtain ⟨f, hf, rfl⟩ := List.mem_map.1 hmem
    exact (h.leafName_extra hf).2 hn
  rw [fields, List.map_append, List.count_append, List.count_eq_zero.2 hextra]
  exact List.nodup_iff_count_le_one.1 ((sublist_knownFields r).nodup hnames) n

theorem find?_fields {g : Guard Json} (hg : g ∈ guards) :
    Parts.find? g.name g.aliases r.fields = last? g.name (knownFields r) := by
  have hn : g.name ∈ knownNames := guards_names ▸ List.mem_map_of_mem hg
  have hextra : last? g.name r.extra = none := by
    rw [Json.last?_eq_none_iff]
    intro hmem
    obtain ⟨f, hf, hname⟩ := List.mem_map.1 hmem
    exact (h.leafName_extra hf).2 (hname ▸ hn)
  rw [Json.find?_eq_lookup (spelling.answers g hg), h.renamed_fields,
    ← Json.last?_of_count (h.count_fields hn), fields, Json.last?_append, hextra, Option.none_or]

theorem checked_fields {other : Json → Decoded Unit} (hother : ∀ v, other v = .ok ()) :
    ∀ f ∈ r.fields, Checked guards other f := by
  have optional : ∀ {α : Type} {name : String} {aliases : List String} {read : Json → Decoded α}
      {write : α → Json} {o : Option α},
      guards.find? (·.answers name) = some (Json.optional name read aliases).guard →
      (∀ a ∈ o, read (write a) = .ok a) → (∀ a, write a ≠ .null) →
      ∀ f ∈ optionalField name write o, Checked guards other f := fun known hread hnull =>
    forall_mem_optionalField fun a ha =>
      Json.checked_of_read known (option_of_read (hread a ha) (hnull a))
  refine List.forall_mem_append.2 ⟨?_, fun f hf => ?_⟩
  · simp only [knownFields, List.forall_mem_append, List.forall_mem_singleton]
    refine ⟨⟨⟨⟨⟨⟨⟨⟨?_, ?_⟩, ?_⟩, ?_⟩, ?_⟩, ?_⟩, ?_⟩, ?_⟩, ?_⟩
    · exact Json.checked_of_read (f := eidField) rfl rfl
    · exact optional rfl (fun n _ => Json.uint32_ofNat n) (by simp)
    · exact optional rfl (fun _ _ => rfl) (by simp)
    · exact optional rfl (fun _ _ => rfl) (by simp)
    · exact optional rfl h.mapVersion (by simp)
    · exact optional rfl h.timestamp (by simp)
    · exact optional rfl (fun _ _ => rfl) (by simp)
    · exact optional rfl (fun _ _ => rfl) (by simp)
    · have hread := Json.list_array (Json.each_map (f := id) fun l (_ : l ∈ r.locators) =>
        l.read_toJson)
      exact forall_mem_listField (Json.checked_of_read (f := locatorsField) rfl hread)
  · have hnone : guards.find? (·.answers f.1) = none := by
      rw [List.find?_eq_none]
      exact fun g hg => List.any_eq_false.1 (h.unknown f hf) g hg
    simp only [Checked, hnone]
    exact hother f.2

theorem unknown_fields : r.fields.filter (fun f => !guards.any (·.answers f.1)) = r.extra := by
  have hknown : (knownFields r).filter (fun f => !guards.any (·.answers f.1)) = [] := by
    rw [List.filter_eq_nil_iff]
    intro f hf
    have hnames : ∀ n ∈ knownNames, guards.any (·.answers n) = true := by decide
    simp [hnames _ ((sublist_knownFields r).subset (List.mem_map_of_mem hf))]
  have hextra : r.extra.filter (fun f => !guards.any (·.answers f.1)) = r.extra := by
    rw [List.filter_eq_self]
    intro f hf
    rw [h.unknown f hf]
    rfl
  rw [fields, List.filter_append, hknown, hextra, List.nil_append]

end Regular

theorem read_toJson {r : Record} (h : r.Regular) : read r.toJson = .ok r := by
  refine bind_eq_ok.2 ⟨_, Json.walk_of_checked spelling (h.checked_fields fun _ => rfl) []
    fun name hn => ?count, bind_eq_ok.2 ⟨(), rfl, bind_eq_ok.2 ⟨_, Json.mapM_value _, ?_⟩⟩⟩
  case count =>
    rw [h.renamed_fields]
    exact h.count_fields hn
  have hextra := (congrArg Json.sortFields h.unknown_fields).trans h.ascending.sortFields_eq
  have heid : (Parts.named r.fields).get eidField = .ok r.eid :=
    get_named ((h.find?_fields (g := eidField.guard) (by simp [guards])).trans
      (by simp [knownFields, eidField, Json.required, Json.Field.guard]))
  have hlocators : (Parts.named r.fields).get locatorsField = .ok r.locators :=
    get_of_listField rfl rfl (fun l _ => l.read_toJson)
      ((h.find?_fields (g := locatorsField.guard) (by simp [guards])).trans
        (by simp [knownFields, locatorsField, Json.defaulted, Json.Field.guard]))
  have optional : ∀ {α : Type} {name : String} {aliases : List String} {read : Json → Decoded α}
      {o : Option α} (write : α → Json), (Json.optional name read aliases).guard ∈ guards →
      (∀ a ∈ o, read (write a) = .ok a) → (∀ a, write a ≠ .null) →
      last? name (knownFields r) = o.map write →
      (Parts.named r.fields).get (Json.optional name read aliases) = .ok o :=
    fun _ hg hread hnull hlast =>
      get_of_optionalField rfl rfl hread hnull ((h.find?_fields hg).trans hlast)
  have hrecordTtl : (Parts.named r.fields).get recordTtlField = .ok r.recordTtl :=
    optional (.ofNat ·.toNat) (by simp [guards, recordTtlField]) (fun n _ => Json.uint32_ofNat n)
      (by simp) (by simp [knownFields])
  have haction : (Parts.named r.fields).get actionField = .ok r.action :=
    optional .string (by simp [guards, actionField]) (fun _ _ => rfl) (by simp)
      (by simp [knownFields])
  have hauthoritative : (Parts.named r.fields).get authoritativeField = .ok r.authoritative :=
    optional .bool (by simp [guards, authoritativeField]) (fun _ _ => rfl) (by simp)
      (by simp [knownFields])
  have hmapVersion : (Parts.named r.fields).get mapVersionField = .ok r.mapVersion :=
    optional .ofInt (by simp [guards, mapVersionField]) h.mapVersion (by simp)
      (by simp [knownFields])
  have htimestamp : (Parts.named r.fields).get timestampField = .ok r.timestamp :=
    optional .ofInt (by simp [guards, timestampField]) h.timestamp (by simp)
      (by simp [knownFields])
  have hsiteId : (Parts.named r.fields).get siteIdField = .ok r.siteId :=
    optional .string (by simp [guards, siteIdField]) (fun _ _ => rfl) (by simp)
      (by simp [knownFields])
  have hxtrId : (Parts.named r.fields).get xtrIdField = .ok r.xtrId :=
    optional .string (by simp [guards, xtrIdField]) (fun _ _ => rfl) (by simp)
      (by simp [knownFields])
  dsimp only
  rw [heid, hrecordTtl, haction, hauthoritative, hmapVersion, htimestamp, hsiteId, hxtrId,
    hlocators]
  exact congrArg (fun extra => Except.ok { r with extra }) hextra

def arranged (r : Record) : Record :=
  { r with
    eid := r.eid.ordered
    locators := r.locators.map Locator.arranged
    extra := Json.orderedFields r.extra }

theorem steady : ∀ g ∈ guards, Guard.Steady g := by
  simp only [guards, List.forall_mem_cons, List.not_mem_nil, false_implies, implies_true, and_true]
  exact ⟨Json.arranges_value.steady, Json.arranges_uint32.option.steady,
    Json.arranges_text.option.steady, Json.arranges_boolean.option.steady,
    Json.arranges_int16.option.steady, Json.arranges_int64.option.steady,
    Json.arranges_text.option.steady, Json.arranges_text.option.steady,
    Locator.arranges_read.list.steady⟩

theorem arranges_read : Arranges read arranged := by
  refine Json.arranges_openRecord spelling steady fun hp h => ?_
  refine Json.bind_arranged spelling hp h (by simp [guards]) Json.arranges_value
      (fun _ h => by cases h) fun eid h => ?_
  refine Json.bind_arranged spelling hp h (by simp [guards]) Json.arranges_uint32.option
    (fun _ _ => rfl) fun recordTtl h => ?_
  refine Json.bind_arranged spelling hp h (by simp [guards]) Json.arranges_text.option
    (fun _ _ => rfl) fun action h => ?_
  refine Json.bind_arranged spelling hp h (by simp [guards]) Json.arranges_boolean.option
    (fun _ _ => rfl) fun authoritative h => ?_
  refine Json.bind_arranged spelling hp h (by simp [guards]) Json.arranges_int16.option
    (fun _ _ => rfl) fun mapVersion h => ?_
  refine Json.bind_arranged spelling hp h (by simp [guards]) Json.arranges_int64.option
    (fun _ _ => rfl) fun timestamp h => ?_
  refine Json.bind_arranged spelling hp h (by simp [guards]) Json.arranges_text.option
    (fun _ _ => rfl) fun siteId h => ?_
  refine Json.bind_arranged spelling hp h (by simp [guards]) Json.arranges_text.option
    (fun _ _ => rfl) fun xtrId h => ?_
  refine Json.bind_arranged spelling hp h (by simp [guards]) Locator.arranges_read.list ?_
    fun locators h => ?_
  · rintro ls ⟨⟩
    rfl
  · cases h
    rfl

end Record

namespace Mapping

def fields (eidUri : String) (origin : Option String) (record : Json) : List (String × Json) :=
  [("eid-uri", .string eidUri)] ++ optionalField "origin" .string origin ++
    [("mapping-record", record)]

variable {eidUri : String} {origin : Option String} {v : Json} {r : Record}

theorem passes_fields (h : Record.read v = .ok r) :
    Json.Passes guards [] (fields eidUri origin v) := by
  have hrecord : recordField.guard.check v = .ok () := check_guard (f := recordField) h
  refine Json.passes_of_distinct ?_ ?_
  · simp only [fields, List.forall_mem_append, List.forall_mem_singleton]
    refine ⟨⟨⟨_, rfl, rfl, rfl⟩, ?_⟩, ⟨_, rfl, rfl, hrecord⟩⟩
    exact forall_mem_optionalField fun s _ =>
      ⟨_, rfl, rfl, check_guard (Json.option_text_string s)⟩
  · have hnames : (["eid-uri"] ++ ["origin"] ++ ["mapping-record"]).Nodup := by decide
    simp only [fields, List.nil_append, List.map_append]
    exact (((List.Sublist.refl _).append (sublist_optionalField ..)).append (.refl _)).nodup hnames

theorem read_fields (h : Record.read v = .ok r) :
    read (Json.object (fields eidUri origin v)) = .ok ⟨eidUri, origin, r⟩ := by
  have horigin : (Parts.named (fields eidUri origin v)).get originField = .ok origin := by
    refine Json.get_optional Json.option_text_string ?_
    cases origin <;> rfl
  have hrecord : (Parts.named (fields eidUri origin v)).get recordField = .ok r := by
    refine (get_named ?_).trans h
    cases origin <;> rfl
  refine (record_object (passes_fields h)).trans ?_
  rw [get_named rfl, horigin, hrecord]
  rfl

theorem read_toJson {m : Mapping} (h : m.record.Regular) : read m.toJson = .ok m :=
  read_fields (Record.read_toJson h)

def arranged (m : Mapping) : Mapping := { m with record := m.record.arranged }

theorem steady : ∀ g ∈ guards, Guard.Steady g := by
  simp only [guards, List.forall_mem_cons, List.not_mem_nil, false_implies, implies_true, and_true]
  exact ⟨Json.arranges_text.steady, Json.arranges_text.option.steady, Record.arranges_read.steady⟩

theorem arranges_read : Arranges read arranged := by
  refine Json.arranges_record spelling steady fun hp h => ?_
  refine Json.bind_arranged spelling hp h (by simp [guards]) Json.arranges_text
      (fun _ h => by cases h) fun eidUri h => ?_
  refine Json.bind_arranged spelling hp h (by simp [guards]) Json.arranges_text.option
    (fun _ _ => rfl) fun origin h => ?_
  refine Json.bind_arranged spelling hp h (by simp [guards]) Record.arranges_read
      (fun _ h => by cases h) fun r h => ?_
  cases h
  rfl

end Mapping

namespace Secret

def guards : List (Guard Json) := [typeField.guard, textField.guard]

theorem spelling : Spelling guards fun k => k :=
  Json.spelling_of_unaliased (by simp [guards, typeField, textField, Json.defaulted, Field.guard])

theorem read_toJson (s : Secret) : read s.toJson = .ok s := by
  have htype : typeField.read (Json.ofNat s.type.toNat) = .ok s.type := Json.uint16_ofNat s.type
  have hp : Json.Passes guards []
      [("key-type", .ofNat s.type.toNat), ("key-string", .string s.text)] :=
    .cons rfl rfl (check_guard htype) <| .cons rfl rfl rfl <| .nil _
  refine (record_object hp).trans ?_
  rw [get_named rfl, get_named rfl, htype]
  rfl

theorem steady : ∀ g ∈ guards, Guard.Steady g := by
  simp only [guards, List.forall_mem_cons, List.not_mem_nil, false_implies, implies_true, and_true]
  exact ⟨Json.arranges_uint16.steady, Json.arranges_text.steady⟩

theorem arranges_read : Arranges read id := by
  refine Json.arranges_record spelling steady fun hp h => ?_
  refine Json.bind_arranged spelling hp h (by simp [guards]) Json.arranges_uint16
    (fun _ _ => rfl) fun type h => ?_
  refine Json.bind_arranged spelling hp h (by simp [guards]) Json.arranges_text
    (fun _ _ => rfl) fun text h => ?_
  cases h
  rfl

end Secret

namespace Key

def guards : List (Guard Json) := [eidUriField.guard, eidField.guard, secretField.guard]

theorem spelling : Spelling guards fun k => k :=
  Json.spelling_of_unaliased
    (by simp [guards, eidUriField, eidField, secretField, Json.required, Field.guard])

theorem read_toJson (k : Key) : read k.toJson = .ok k := by
  have hsecret : secretField.read k.secret.toJson = .ok k.secret := k.secret.read_toJson
  have hp : Json.Passes guards [] [("eid-uri", .string k.eidUri), ("eid", k.eid),
      ("mapping-authkey", k.secret.toJson)] :=
    .cons rfl rfl rfl <| .cons rfl rfl rfl <| .cons rfl rfl (check_guard hsecret) <| .nil _
  refine (record_object hp).trans ?_
  rw [get_named rfl, get_named rfl, get_named rfl, hsecret]
  rfl

def arranged (k : Key) : Key := { k with eid := k.eid.ordered }

theorem steady : ∀ g ∈ guards, Guard.Steady g := by
  simp only [guards, List.forall_mem_cons, List.not_mem_nil, false_implies, implies_true, and_true]
  exact ⟨Json.arranges_text.steady, Json.arranges_value.steady, Secret.arranges_read.steady⟩

theorem arranges_read : Arranges read arranged := by
  refine Json.arranges_record spelling steady fun hp h => ?_
  refine Json.bind_arranged spelling hp h (by simp [guards]) Json.arranges_text
      (fun _ h => by cases h) fun eidUri h => ?_
  refine Json.bind_arranged spelling hp h (by simp [guards]) Json.arranges_value
      (fun _ h => by cases h) fun eid h => ?_
  refine Json.bind_arranged spelling hp h (by simp [guards]) Secret.arranges_read
      (fun _ h => by cases h) fun secret h => ?_
  cases h
  rfl

end Key

namespace Network

def guards : List (Guard Json) := [vniField.guard, mappingsField.guard, keysField.guard]

def leafName : String → String
  | "iid" => "vni"
  | name => name

theorem spelling : Spelling guards leafName where
  answers g hg k := by
    simp only [guards, List.mem_cons, List.not_mem_nil, or_false] at hg
    rcases hg with rfl | rfl | rfl
    all_goals
      unfold leafName
      split <;> simp_all [Guard.answers, Json.Field.guard, vniField, mappingsField, keysField,
        Json.required, Json.defaulted]
  other k := by
    unfold leafName
    split
    · exact .inr (by decide)
    · exact .inl rfl

def fields (n : Network) : List (String × Json) :=
  [("vni", .ofNat n.vni.toNat)] ++ listField "mapping" Mapping.toJson n.mappings ++
    listField "authentication-key" Key.toJson n.keys

def Regular (n : Network) : Prop := ∀ m ∈ n.mappings, m.record.Regular

variable {n : Network} (h : n.Regular)

include h

theorem list_mappings : Json.list Mapping.read (Json.array (n.mappings.map Mapping.toJson)) =
    .ok (n.mappings.map id) :=
  Json.list_array (Json.each_map fun m hm => Mapping.read_toJson (h m hm))

theorem passes_fields : Json.Passes guards [] n.fields := by
  have hvni : vniField.guard.check (Json.ofNat n.vni.toNat) = .ok () :=
    check_guard (Json.uint32_ofNat n.vni)
  have hkeys : Json.list Key.read (Json.array (n.keys.map Key.toJson)) = .ok (n.keys.map id) :=
    Json.list_array (Json.each_map fun k _ => k.read_toJson)
  refine Json.passes_of_distinct ?_ ?_
  · simp only [fields, List.forall_mem_append, List.forall_mem_singleton]
    exact ⟨⟨⟨_, rfl, rfl, hvni⟩, forall_mem_listField ⟨_, rfl, rfl, check_guard (list_mappings h)⟩⟩,
      forall_mem_listField ⟨_, rfl, rfl, check_guard hkeys⟩⟩
  · have hnames : (["vni"] ++ ["mapping"] ++ ["authentication-key"]).Nodup := by decide
    simp only [fields, List.nil_append, List.map_append]
    exact (((List.Sublist.refl _).append (sublist_listField ..)).append
      (sublist_listField ..)).nodup hnames

theorem read_toJson : read n.toJson = .ok n := by
  have hvni : vniField.read (Json.ofNat n.vni.toNat) = .ok n.vni := Json.uint32_ofNat n.vni
  have hmappings : (Parts.named n.fields).get mappingsField = .ok n.mappings := by
    refine get_of_listField rfl rfl (fun m hm => Mapping.read_toJson (h m hm)) ?_
    rw [fields]
    cases n.mappings <;> cases n.keys <;> rfl
  have hkeys : (Parts.named n.fields).get keysField = .ok n.keys := by
    refine get_of_listField rfl rfl (fun k _ => k.read_toJson) ?_
    rw [fields]
    cases n.mappings <;> cases n.keys <;> rfl
  refine (record_object (passes_fields h)).trans ?_
  rw [get_named rfl, hvni, hmappings, hkeys]
  rfl

omit h

def arranged (n : Network) : Network :=
  { n with mappings := n.mappings.map Mapping.arranged, keys := n.keys.map Key.arranged }

theorem steady : ∀ g ∈ guards, Guard.Steady g := by
  simp only [guards, List.forall_mem_cons, List.not_mem_nil, false_implies, implies_true, and_true]
  exact ⟨Json.arranges_uint32.steady, Mapping.arranges_read.list.steady,
    Key.arranges_read.list.steady⟩

theorem arranges_read : Arranges read arranged := by
  refine Json.arranges_record spelling steady fun hp h => ?_
  refine Json.bind_arranged spelling hp h (by simp [guards]) Json.arranges_uint32
      (fun _ h => by cases h) fun vni h => ?_
  refine Json.bind_arranged spelling hp h (by simp [guards]) Mapping.arranges_read.list ?_
    fun mappings h => ?_
  · rintro ms ⟨⟩
    rfl
  refine Json.bind_arranged spelling hp h (by simp [guards]) Key.arranges_read.list ?_
    fun keys h => ?_
  · rintro ks ⟨⟩
    rfl
  cases h
  rfl

end Network

namespace Database

def guards : List (Guard Json) := [networksField.guard]

def documentGuards : List (Guard Json) := [databaseField.guard]

theorem spelling : Spelling guards fun k => k :=
  Json.spelling_of_unaliased (by simp [guards, networksField, Json.defaulted, Field.guard])

theorem document_spelling : Spelling documentGuards fun k => k :=
  Json.spelling_of_unaliased (by simp [documentGuards, databaseField, Json.defaulted, Field.guard])

theorem readDocument_toJson {d : Database} (h : ∀ n ∈ d.networks, n.Regular) :
    readDocument d.toJson = .ok d := by
  have hnetworks : networksField.read (Json.array (d.networks.map Network.toJson)) =
      .ok (d.networks.map id) :=
    Json.list_array (Json.each_map fun n hn => Network.read_toJson (h n hn))
  rw [List.map_id] at hnetworks
  have hp : Json.Passes guards [] [("virtual-network-identifier",
      .array (d.networks.map Network.toJson))] :=
    .cons rfl rfl (check_guard hnetworks) <| .nil _
  have hread : read (Json.object [("virtual-network-identifier",
      .array (d.networks.map Network.toJson))]) = .ok d := by
    refine (record_object hp).trans ?_
    rw [get_named rfl, hnetworks]
    rfl
  have hfield : databaseField.read (Json.object [("virtual-network-identifier",
      .array (d.networks.map Network.toJson))]) = .ok d := hread
  have hdocument : Json.Passes documentGuards [] [("mapping-database",
      .object [("virtual-network-identifier", .array (d.networks.map Network.toJson))])] :=
    .cons rfl rfl (check_guard hfield) <| .nil _
  exact (record_object hdocument).trans ((get_named rfl).trans hfield)

def arranged (d : Database) : Database := ⟨d.networks.map Network.arranged⟩

theorem arranges_read : Arranges read arranged := by
  have hlist : Arranges networksField.read (List.map Network.arranged) := Network.arranges_read.list
  refine Json.arranges_record spelling (List.forall_mem_singleton.2 hlist.steady) fun hp h => ?_
  refine Json.bind_arranged spelling hp h (by simp [guards]) hlist ?_ fun networks h => ?_
  · rintro ns ⟨⟩
    rfl
  · cases h
    rfl

theorem arranges_readDocument : Arranges readDocument arranged := by
  have hread : Arranges databaseField.read arranged := arranges_read
  refine Json.arranges_record document_spelling (List.forall_mem_singleton.2 hread.steady)
    fun hp h => ?_
  refine Json.get_arranged document_spelling hp h (by simp [documentGuards]) hread ?_
  rintro d ⟨⟩
  rfl

end Database

def member? (name : String) (place : Nat) : Json → Option Json
  | .object fs => lookup name fs
  | .array xs => xs[place]?
  | _ => none

def elements : Json → List Json
  | .array xs => xs
  | _ => []

/-- The mapping records in a database document, those of one network after those of another. -/
def mappingRecords (document : Json) : List Json :=
  (((member? "mapping-database" 0 document).bind (member? "virtual-network-identifier" 0)).elim []
    elements).flatMap fun network =>
      ((member? "mapping" 1 network).elim [] elements).filterMap (member? "mapping-record" 2)

section

variable {guards : List (Guard Json)} {canon : String → String} {v : Json} {p : Parts Json}

theorem member?_eq (hp : Json.AreParts guards canon v p) (name : String) :
    p.member? name [] = member? name ((guards.map (·.name)).idxOf name) v := by
  cases hp with
  | @named fs single => exact Json.find?_unaliased name fs
  | placed kind xs => rfl

theorem forall₂_of_get_list {α : Type} (hp : Json.AreParts guards canon v p) {name : String}
    {read : Json → Decoded α} {as : List α}
    (h : p.get (Json.defaulted name (Json.list read) []) = .ok as) :
    List.Forall₂ (fun x a => read x = .ok a)
      ((member? name ((guards.map (·.name)).idxOf name) v).elim [] elements) as := by
  rw [← member?_eq hp]
  rcases Parts.get_eq_ok h with ⟨l, hl, h⟩ | ⟨hl, h⟩
  · obtain ⟨xs, rfl, hxs⟩ := Json.forall₂_of_list_value h
    rw [show p.member? name [] = _ from hl]
    exact hxs
  · cases h
    rw [show p.member? name [] = _ from hl]
    exact .nil

end

theorem Mapping.record_of_member {v : Json} {m : Mapping} (h : read v = .ok m) :
    ∃ w, member? "mapping-record" 2 v = some w ∧ Record.read w = .ok m.record := by
  obtain ⟨p, hp, h⟩ := Json.areParts_of_record spelling h
  obtain ⟨uri, -, h⟩ := bind_eq_ok.1 h
  obtain ⟨origin, -, h⟩ := bind_eq_ok.1 h
  obtain ⟨r, hr, h⟩ := bind_eq_ok.1 h
  cases h
  rcases Parts.get_eq_ok hr with ⟨w, hw, hr⟩ | ⟨-, h⟩
  · exact ⟨w, (member?_eq hp "mapping-record").symm.trans hw, hr⟩
  · cases h

theorem Network.forall₂_records {v : Json} {n : Network} (h : read v = .ok n) :
    List.Forall₂ (fun w r => Record.read w = .ok r)
      (((member? "mapping" 1 v).elim [] elements).filterMap (member? "mapping-record" 2))
      (n.mappings.map (·.record)) := by
  obtain ⟨p, hp, h⟩ := Json.areParts_of_record spelling h
  obtain ⟨vni, -, h⟩ := bind_eq_ok.1 h
  obtain ⟨mappings, hmappings, h⟩ := bind_eq_ok.1 h
  obtain ⟨keys, -, h⟩ := bind_eq_ok.1 h
  cases h
  have hmappings := forall₂_of_get_list hp hmappings
  rw [← List.filterMap_eq_map]
  refine List.rel_filterMap (fun w m hm => ?_) hmappings
  obtain ⟨x, hx, hr⟩ := Mapping.record_of_member hm
  rw [hx]
  exact .some hr

theorem Database.forall₂_networks {v : Json} {d : Database} (h : readDocument v = .ok d) :
    List.Forall₂ (fun w n => Network.read w = .ok n)
      (((member? "mapping-database" 0 v).bind (member? "virtual-network-identifier" 0)).elim []
        elements) d.networks := by
  obtain ⟨p, hp, h⟩ := Json.areParts_of_record document_spelling h
  have hmember : p.member? "mapping-database" [] = member? "mapping-database" 0 v :=
    member?_eq hp "mapping-database"
  rcases Parts.get_eq_ok h with ⟨w, hw, h⟩ | ⟨hw, h⟩
  · have hw : member? "mapping-database" 0 v = some w := hmember.symm.trans hw
    have h : read w = .ok d := h
    obtain ⟨q, hq, h⟩ := Json.areParts_of_record spelling h
    obtain ⟨networks, hnetworks, h⟩ := bind_eq_ok.1 h
    cases h
    rw [hw]
    exact forall₂_of_get_list hq hnetworks
  · have hw : member? "mapping-database" 0 v = none := hmember.symm.trans hw
    cases h
    rw [hw]
    exact .nil

theorem Database.forall₂_records {v : Json} {d : Database} (h : readDocument v = .ok d) :
    List.Forall₂ (fun w r => Record.read w = .ok r) (mappingRecords v)
      (d.networks.flatMap fun n => n.mappings.map (·.record)) :=
  List.rel_flatMap (forall₂_networks h) fun _ _ hn => Network.forall₂_records hn

theorem Database.regular_of_read {v : Json} {d : Database} (h : readDocument v = .ok d) :
    ∀ n ∈ d.networks, n.Regular := by
  have hregular := (List.forall₂_and_left _ _).1
    ((forall₂_records h).flip.imp fun r w hw => And.intro (Record.regular_of_read hw) hw)
  exact fun n hn m hm => hregular.1 _ (List.mem_flatMap.2 ⟨n, hn, List.mem_map_of_mem hm⟩)

namespace Record

def spellings : List String := knownNames ++ ["record-ttl", "map-version", "locator-record"]

/-- Two mapping records have the same EID, and under every name that a record does not know they
have the same or both nothing. -/
def Agree (v w : Json) : Prop :=
  ∃ fs gs eid, v = .object fs ∧ w = .object gs ∧ last? "eid" fs = some eid ∧
    last? "eid" gs = some eid ∧ ∀ n, n ∉ spellings → last? n fs = last? n gs

theorem ReadFrom.last?_eid {fs : List (String × Json)} {r : Record} (h : ReadFrom fs r) :
    last? "eid" fs = some r.eid := by
  have heid : Parts.find? "eid" [] fs = lookup "eid" (renamed leafName fs) :=
    Json.find?_eq_lookup (spelling.answers eidField.guard (by simp [guards])) fs
  have hone : (fs.map Prod.fst).count "eid" ≤ 1 :=
    Json.countP_of_single h.single (show "eid" ∈ knownNames by decide) rfl
  have hkept : keptValue "eid" = some := by
    funext v
    exact keptValue_of_other (by decide) (by decide) v
  have hknown := h.known "eid" (by decide)
  rw [hkept, Option.bind_fun_some, ← heid, Json.find?_unaliased, ← Json.last?_of_count hone] at hknown
  rw [← hknown]
  simp [knownFields]

theorem ReadFrom.last?_unknown {fs : List (String × Json)} {r : Record} (h : ReadFrom fs r)
    {n : String} (hn : n ∉ spellings) : last? n fs = lookup n r.extra := by
  have hunknown : guards.any (·.answers n) = false := by
    rw [List.any_eq_false]
    intro g hg hanswers
    rw [Guard.answers, Bool.or_eq_true, beq_iff_eq, List.contains_iff_mem] at hanswers
    have hspellings : ∀ g ∈ guards, g.name ∈ spellings ∧ ∀ a ∈ g.aliases, a ∈ spellings := by
      decide
    rcases hanswers with rfl | hmem
    · exact hn (hspellings g hg).1
    · exact hn ((hspellings g hg).2 n hmem)
  rw [h.extra, Json.lookup_sortFields_eq, Json.last?_filter fun k => !guards.any (·.answers k),
    hunknown]
  rfl

theorem agree_of_read {v w : Json} {r : Record} (hv : read v = .ok r) (hw : read w = .ok r) :
    Agree v w := by
  obtain ⟨fs, rfl, hfs⟩ := readFrom_of_read hv
  obtain ⟨gs, rfl, hgs⟩ := readFrom_of_read hw
  refine ⟨fs, gs, r.eid, rfl, rfl, hfs.last?_eid, hgs.last?_eid, fun n hn => ?_⟩
  rw [hfs.last?_unknown hn, hgs.last?_unknown hn]

theorem forall₂_agree {vs ws : List Json} {rs : List Record}
    (hv : List.Forall₂ (fun v r => read v = .ok r) vs rs)
    (hw : List.Forall₂ (fun w r => read w = .ok r) ws rs) : List.Forall₂ Agree vs ws := by
  induction hv generalizing ws with
  | nil =>
    cases hw
    exact .nil
  | cons hv _ ih =>
    cases hw with
    | cons hw hrest => exact .cons (agree_of_read hv hw) (ih hrest)

end Record

namespace Database

/-- A document that was read is written to one that is read as the same, as it stands and, if the
values of the first were in order, in order. Its mapping records are those of the first, each with
the same EID and the same unknown leaves. -/
theorem written_document_read {j k : Json} {d : Database} (h : readDocument j = .ok d)
    (hk : k = d.toJson ∨ j.ordered = j ∧ k = d.toJson.ordered) :
    readDocument k = .ok d ∧ List.Forall₂ Record.Agree (mappingRecords j) (mappingRecords k) := by
  have hwritten := readDocument_toJson (regular_of_read h)
  have hread : readDocument k = .ok d := by
    rcases hk with rfl | ⟨hj, rfl⟩
    · exact hwritten
    · have harranged := arranges_readDocument _ _ h
      rw [hj, h] at harranged
      have hordered := arranges_readDocument _ _ hwritten
      rwa [← harranged] at hordered
  refine ⟨hread, ?_⟩
  exact Record.forall₂_agree (forall₂_records h) (forall₂_records hread)

def strayRecord : Json :=
  .object [("eid", .ofNat 1), ("note", .null), ("record-ttl", .ofNat 5), ("site-id", .null)]

def strayDocument : Json :=
  .object [("mapping-database", .array [.array [.object [("iid", .ofNat 7),
    ("mapping", .array [.array [.string "a", .null, strayRecord]])]]])]

theorem stray_document_read :
    ∃ d, readDocument strayDocument = .ok d ∧ strayDocument.ordered = strayDocument ∧
      readDocument d.toJson.ordered = .ok d ∧
      List.Forall₂ Record.Agree [strayRecord] (mappingRecords d.toJson.ordered) :=
  ⟨_, rfl, rfl, written_document_read (j := strayDocument) rfl (.inr ⟨rfl, rfl⟩)⟩

end Database

end EidMap.Stored
