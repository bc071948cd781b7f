import EidMap.Proofs.Address.Ordering
import EidMap.Proofs.Instant.Text
import EidMap.Proofs.Json.Forms
import EidMap.Proofs.Stored.RoundTrip

/-!
# Rows of the mappings table written and read again

A row is written with other names than the mapping that it was made from, its addresses with all
their types and its instant as text. It is read from that again with everything that it has, in both
forms of what was written, if its parts are: its addresses must be well formed, its instant on the
calendar, its version a number of sixteen bits. The row of a mapping that came out of JSON has such
parts whatever the mapping was.
-/

namespace EidMap

open Json (Reads reads_of_ordered reads_ofOption reads_text reads_nullable_text reads_boolean
  reads_uint8 reads_uint32 bind_eq_ok)

theorem Action.reads_name (a : Action) : Reads Action.read (.string a.name) a := by
  refine reads_of_ordered rfl ?_
  cases a <;> rfl

theorem reads_wireAddress {a : Address} (h : a.WellFormed) (ordered : a.Ordered) :
    Reads Locator.wireAddress a.toWire a := by
  refine reads_of_ordered ordered.eq ?_
  rw [Locator.wireAddress, Json.value_eq_ok.2 rfl, Except.map, h.ofWire_toWire]

theorem Instant.Civil.reads_text {t : Instant} (h : t.Civil) :
    Reads Mapping.instant (.string t.text) t := by
  refine reads_of_ordered rfl ?_
  simp only [Mapping.instant, Json.layer_eq, Json.valueLayer, h.read_text]

namespace Locator

def members (l : Locator) : List (String × Json) :=
  [("locator_id", Json.ofOption .string l.id), ("address", l.address.toWire),
    ("priority", .ofNat l.priority.toNat), ("weight", .ofNat l.weight.toNat),
    ("multicast_priority", .ofNat l.multicastPriority.toNat),
    ("multicast_weight", .ofNat l.multicastWeight.toNat), ("local_locator", .bool l.localLocator),
    ("rloc_probed", .bool l.probed), ("routed", .bool l.routed)]

theorem reads_toJson {l : Locator} (h : Reads wireAddress l.address.toWire l.address) :
    Reads Locator.read l.toJson l := by
  have hmembers : Reads Locator.read (.object l.members) l := by
    refine Json.reads_record (.refl _) (by decide) ?_ fun gs hgs => ?_
    · simp only [members, List.forall_mem_cons, List.not_mem_nil, false_implies, implies_true,
        and_true]
      exact ⟨⟨_, rfl, rfl, (reads_nullable_text l.id).check⟩, ⟨_, rfl, rfl, h.check⟩,
        ⟨_, rfl, rfl, (reads_uint8 _).check⟩, ⟨_, rfl, rfl, (reads_uint8 _).check⟩,
        ⟨_, rfl, rfl, (reads_uint8 _).check⟩, ⟨_, rfl, rfl, (reads_uint8 _).check⟩,
        ⟨_, rfl, rfl, (reads_boolean _).check⟩, ⟨_, rfl, rfl, (reads_boolean _).check⟩,
        ⟨_, rfl, rfl, (reads_boolean _).check⟩⟩
    · rw [hgs.get (f := idField) rfl rfl (reads_nullable_text l.id),
        hgs.get (f := addressField) rfl rfl h, hgs.get (f := priorityField) rfl rfl (reads_uint8 _),
        hgs.get (f := weightField) rfl rfl (reads_uint8 _),
        hgs.get (f := multicastPriorityField) rfl rfl (reads_uint8 _),
        hgs.get (f := multicastWeightField) rfl rfl (reads_uint8 _),
        hgs.get (f := localField) rfl rfl (reads_boolean _),
        hgs.get (f := probedField) rfl rfl (reads_boolean _),
        hgs.get (f := routedField) rfl rfl (reads_boolean _)]
      rfl
  exact hmembers

end Locator

namespace Summary

def members (s : Summary) : List (String × Json) :=
  [("locator_string", .string s.locators), ("flags", .string s.flags), ("ttl", .string s.ttl)]

theorem reads_toJson (s : Summary) : Reads Summary.read s.toJson s := by
  have hmembers : Reads Summary.read (.object s.members) s := by
    refine Json.reads_record (.refl _) (by decide) ?_ fun gs hgs => ?_
    · simp only [members, List.forall_mem_cons, List.not_mem_nil, false_implies, implies_true,
        and_true]
      exact ⟨⟨_, rfl, rfl, (reads_text _).check⟩, ⟨_, rfl, rfl, (reads_text _).check⟩,
        ⟨_, rfl, rfl, (reads_text _).check⟩⟩
    · rw [hgs.get (f := locatorsField) rfl rfl (reads_text _),
        hgs.get (f := flagsField) rfl rfl (reads_text _),
        hgs.get (f := ttlField) rfl rfl (reads_text _)]
      rfl
  exact hmembers

end Summary

namespace Mapping

/-- A row whose parts are read again from what is written for them. -/
structure Lasting (m : Mapping) : Prop where
  eid : Reads Locator.wireAddress m.eid.toWire m.eid
  mapVersion : ∀ z ∈ m.mapVersion, Json.int16 (Json.ofInt z) = .ok z
  timestamp : ∀ t ∈ m.timestamp, t.Civil
  locators : ∀ l ∈ m.locators, Reads Locator.wireAddress l.address.toWire l.address
  raw : m.raw.ordered = m.raw

def members (m : Mapping) : List (String × Json) :=
  [("vni", .ofNat m.vni.toNat), ("eid_uri", .string m.eidUri),
    ("origin", Json.ofOption .string m.origin), ("eid", m.eid.toWire),
    ("record_ttl", Json.ofOption (.ofNat ·.toNat) m.recordTtl), ("action", .string m.action.name),
    ("authoritative", .bool m.authoritative), ("map_version", Json.ofOption .ofInt m.mapVersion),
    ("timestamp", Json.ofOption (.string ·.text) m.timestamp),
    ("site_id", Json.ofOption .string m.siteId), ("xtr_id", Json.ofOption .string m.xtrId),
    ("locators", .array (m.locators.map Locator.toJson)), ("summary", m.summary.toJson)]

theorem rawField_eq (v : Json) : rawField v = [] ∧ v = .null ∨ rawField v = [("raw", v)] := by
  cases v with
  | null => exact .inl ⟨rfl, rfl⟩
  | _ => exact .inr rfl

theorem Lasting.reads_toJson {m : Mapping} (h : m.Lasting) : Reads Mapping.read m.toJson m := by
  have hrecordTtl : Reads (Json.option Json.uint32)
      (Json.ofOption (.ofNat ·.toNat) m.recordTtl) m.recordTtl :=
    reads_ofOption _ fun n _ => ⟨rfl, Json.noConfusion, Json.uint32_ofNat n⟩
  have hmapVersion : Reads (Json.option Json.int16) (Json.ofOption .ofInt m.mapVersion)
      m.mapVersion :=
    reads_ofOption _ fun z hz => ⟨rfl, Json.noConfusion, h.mapVersion z hz⟩
  have htimestamp : Reads (Json.option instant) (Json.ofOption (.string ·.text) m.timestamp)
      m.timestamp :=
    reads_ofOption _ fun t ht =>
      ⟨rfl, Json.noConfusion, (h.timestamp t ht).reads_text _ .written⟩
  have hlocators : Reads (Json.list Locator.read) (.array (m.locators.map Locator.toJson))
      m.locators := Reads.list fun l hl => Locator.reads_toJson (h.locators l hl)
  have hraw : Reads Json.value m.raw m.raw := reads_of_ordered h.raw (Json.value_eq_ok.2 rfl)
  have hmembers : Reads Mapping.read (.object (m.members ++ rawField m.raw)) m := by
    refine Json.reads_record ?_ (by decide) (List.forall_mem_append.2 ⟨?_, ?_⟩) fun gs hgs => ?_
    · rcases rawField_eq m.raw with ⟨hnone, -⟩ | hsome
      · rw [hnone, List.append_nil]
        exact List.sublist_append_left _ ["raw"]
      · rw [hsome]
        exact .refl _
    · simp only [members, List.forall_mem_cons, List.not_mem_nil, false_implies, implies_true,
        and_true]
      exact ⟨⟨_, rfl, rfl, (reads_uint32 _).check⟩, ⟨_, rfl, rfl, (reads_text _).check⟩,
        ⟨_, rfl, rfl, (reads_nullable_text _).check⟩, ⟨_, rfl, rfl, h.eid.check⟩,
        ⟨_, rfl, rfl, hrecordTtl.check⟩, ⟨_, rfl, rfl, (Action.reads_name _).check⟩,
        ⟨_, rfl, rfl, (reads_boolean _).check⟩, ⟨_, rfl, rfl, hmapVersion.check⟩,
        ⟨_, rfl, rfl, htimestamp.check⟩, ⟨_, rfl, rfl, (reads_nullable_text _).check⟩,
        ⟨_, rfl, rfl, (reads_nullable_text _).check⟩, ⟨_, rfl, rfl, hlocators.check⟩,
        ⟨_, rfl, rfl, (Summary.reads_toJson _).check⟩⟩
    · rcases rawField_eq m.raw with ⟨hnone, -⟩ | hsome
      · rw [hnone]
        exact List.forall_mem_nil _
      · rw [hsome]
        exact List.forall_mem_singleton.2 ⟨_, rfl, rfl, hraw.check⟩
    · have hget : (Json.Parts.named gs).get rawValueField = .ok m.raw := by
        rcases rawField_eq m.raw with ⟨hnone, hnull⟩ | hsome
        · rw [hnone, List.append_nil] at hgs
          exact hgs.get_absent rfl rfl (congrArg some hnull.symm)
        · rw [hsome] at hgs
          exact hgs.get rfl rfl hraw
      rw [hgs.get (f := vniField) rfl rfl (reads_uint32 _),
        hgs.get (f := eidUriField) rfl rfl (reads_text _),
        hgs.get (f := originField) rfl rfl (reads_nullable_text _),
        hgs.get (f := eidField) rfl rfl h.eid, hgs.get (f := recordTtlField) rfl rfl hrecordTtl,
        hgs.get (f := actionField) rfl rfl (Action.reads_name _),
        hgs.get (f := authoritativeField) rfl rfl (reads_boolean _),
        hgs.get (f := mapVersionField) rfl rfl hmapVersion,
        hgs.get (f := timestampField) rfl rfl htimestamp,
        hgs.get (f := siteIdField) rfl rfl (reads_nullable_text _),
        hgs.get (f := xtrIdField) rfl rfl (reads_nullable_text _),
        hgs.get (f := locatorsField) rfl rfl hlocators,
        hgs.get (f := summaryField) rfl rfl (Summary.reads_toJson _), hget]
      rfl
  exact hmembers

end Mapping

namespace Stored

open Json (Doc isParts_of_record isParts_of_openRecord)

/-- A mapping that came out of JSON: of a value, whose objects are in order, or of a document. -/
inductive Mapping.FromJson (m : Mapping) : Prop
  | value {v : Json} (ordered : v.ordered = v) (read : Mapping.read v = .ok m)
  | document {d : Doc} (read : Mapping.read d = .ok m)

theorem Locator.ordered_of_read {d : Doc} {l : Locator} (h : Locator.read d = .ok l) :
    l.rloc.ordered = l.rloc := by
  obtain ⟨p, hp, h⟩ := isParts_of_record h
  obtain ⟨id, -, h⟩ := bind_eq_ok.1 h
  obtain ⟨priority, -, h⟩ := bind_eq_ok.1 h
  obtain ⟨weight, -, h⟩ := bind_eq_ok.1 h
  obtain ⟨multicastPriority, -, h⟩ := bind_eq_ok.1 h
  obtain ⟨multicastWeight, -, h⟩ := bind_eq_ok.1 h
  obtain ⟨localLocator, -, h⟩ := bind_eq_ok.1 h
  obtain ⟨probed, -, h⟩ := bind_eq_ok.1 h
  obtain ⟨routed, -, h⟩ := bind_eq_ok.1 h
  obtain ⟨rloc, hrloc, h⟩ := bind_eq_ok.1 h
  cases h
  obtain ⟨m, -, hm⟩ := hp.get_required hrloc
  exact Json.ordered_of_capture (Json.capture_of_value hm)

/-- What a row takes over from a record: addresses in order, and a version of sixteen bits. -/
structure Record.Tidy (r : Record) : Prop where
  eid : r.eid.ordered = r.eid
  mapVersion : ∀ z ∈ r.mapVersion, Json.int16 (Json.ofInt z) = .ok z
  locators : ∀ l ∈ r.locators, l.rloc.ordered = l.rloc

theorem Record.tidy_of_document {d : Doc} {r : Record} (h : Record.read d = .ok r) : r.Tidy := by
  obtain ⟨p, extra, hp, h, -⟩ := isParts_of_openRecord h
  obtain ⟨eid, heid, h⟩ := bind_eq_ok.1 h
  obtain ⟨recordTtl, -, h⟩ := bind_eq_ok.1 h
  obtain ⟨action, -, h⟩ := bind_eq_ok.1 h
  obtain ⟨authoritative, -, h⟩ := bind_eq_ok.1 h
  obtain ⟨mapVersion, hmapVersion, h⟩ := bind_eq_ok.1 h
  obtain ⟨timestamp, -, h⟩ := bind_eq_ok.1 h
  obtain ⟨siteId, -, h⟩ := bind_eq_ok.1 h
  obtain ⟨xtrId, -, h⟩ := bind_eq_ok.1 h
  obtain ⟨locators, hlocators, h⟩ := bind_eq_ok.1 h
  cases h
  refine ⟨?_, ?_, fun l hl => ?_⟩
  · obtain ⟨m, -, hm⟩ := hp.get_required heid
    exact Json.ordered_of_capture (Json.capture_of_value hm)
  · rintro z rfl
    rcases hp.get hmapVersion with ⟨m, -, hm⟩ | ⟨-, habsent⟩
    · exact Json.int16_ofInt_of_int16 (Json.eq_ok_of_option hm)
    · cases habsent
  · rcases hp.get hlocators with ⟨m, -, hm⟩ | ⟨-, habsent⟩
    · have hordered := (List.forall₂_and_left _ _).1 ((Json.forall₂_of_list hm).flip.imp
        fun l e he => And.intro (Locator.ordered_of_read he) he)
      exact hordered.1 l hl
    · cases habsent
      cases hl

theorem Mapping.FromJson.tidy {m : Mapping} (h : m.FromJson) : m.record.Tidy := by
  cases h with
  | @value v ordered h =>
    have harranged := Mapping.arranges_read v m h
    rw [ordered, h, Except.ok.injEq] at harranged
    have hrecord : m.record.arranged = m.record := congrArg Mapping.record harranged.symm
    have hlocators : m.record.locators.map Locator.arranged = m.record.locators.map id := by
      rw [List.map_id]
      exact congrArg Record.locators hrecord
    obtain ⟨w, -, hw⟩ := Mapping.record_of_member h
    exact ⟨congrArg Record.eid hrecord, (Record.regular_of_read hw).mapVersion,
      fun l hl => congrArg Locator.rloc (List.map_inj_left.1 hlocators l hl)⟩
  | document h =>
    obtain ⟨p, hp, h⟩ := isParts_of_record h
    obtain ⟨uri, -, h⟩ := bind_eq_ok.1 h
    obtain ⟨origin, -, h⟩ := bind_eq_ok.1 h
    obtain ⟨r, hr, h⟩ := bind_eq_ok.1 h
    cases h
    obtain ⟨d, -, hd⟩ := hp.get_required hr
    exact Record.tidy_of_document hd

end Stored

namespace Mapping

theorem lasting_ofStored (vni : UInt32) {m : Stored.Mapping} (h : m.record.Tidy) :
    (ofStored vni m).Lasting where
  eid := reads_wireAddress (Address.wellFormed_ofWire _) (Address.ordered_ofWire _ h.eid)
  mapVersion := h.mapVersion
  timestamp t ht := by
    obtain ⟨ms, -, hms⟩ := Option.bind_eq_some_iff.1 ht
    exact Instant.civil_of_ofMillis? hms
  locators := by
    refine List.forall_mem_map.2 fun l hl => ?_
    exact reads_wireAddress (Address.wellFormed_ofWire _)
      (Address.ordered_ofWire _ (h.locators l hl))
  raw := Json.ordered_ordered _

/-- The row of a mapping that came out of JSON is read again, with everything that it has, from what
is written for it: as it was written, and with the fields put in order. -/
theorem written_row_read (vni : UInt32) {m : Stored.Mapping} (h : m.FromJson) :
    read (ofStored vni m).toJson = .ok (ofStored vni m) ∧
      read (ofStored vni m).toJson.ordered = .ok (ofStored vni m) := by
  have hreads := (lasting_ofStored vni h.tidy).reads_toJson
  exact ⟨hreads _ .written, hreads _ .ordered⟩

def oddMapping : Json :=
  .object [("eid-uri", .string "odd"), ("mapping-record", .object [
    ("LocatorRecord", .array [.object [("priority", .ofNat 1), ("rloc", .string "192.0.2.1")]]),
    ("eid", .object [("address-type", .string "nonce"), ("nonce", .null)]),
    ("mapVersion", .ofInt (-1)), ("note", .bool true), ("timestamp", .ofInt 951782400500)])]

theorem odd_row_read :
    ∃ m, Stored.Mapping.read oddMapping = .ok m ∧
      (ofStored 7 m).timestamp = some ⟨951782400, 500000000⟩ ∧
      read (ofStored 7 m).toJson = .ok (ofStored 7 m) ∧
      read (ofStored 7 m).toJson.ordered = .ok (ofStored 7 m) :=
  ⟨_, rfl, rfl, written_row_read 7 (.value (v := oddMapping) rfl rfl)⟩

end Mapping

end EidMap
