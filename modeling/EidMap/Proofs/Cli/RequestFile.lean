import EidMap.Cli.Requests
import EidMap.Proofs.Cli.Notice
import EidMap.Proofs.Json.Written
import Mathlib.Data.List.Forall2

/-!
# Mappings told by flags or by a file

A file that holds what the flags of a command line tell makes the same request as the flags,
whatever the order of its fields, or both are refused.
-/

namespace EidMap

open Json (Spells Arranged)

section Parts

variable (depth : Nat)

theorem readAddress_spelled (s : String) :
    readAddress ((Json.string s).toDoc depth) =
      match Address.parse s with
      | .ok a => .ok a
      | .error e => .error (Json.Flaw.at (.refused e.message) .enclosed) := rfl

theorem uint8_spelled (n : UInt8) : Json.uint8 ((Json.ofNat n.toNat).toDoc depth) = .ok n :=
  Json.uint8_ofNat n

theorem uint32_spelled (n : UInt32) : Json.uint32 ((Json.ofNat n.toNat).toDoc depth) = .ok n :=
  Json.uint32_ofNat n

theorem option_uint32_spelled (n : Option UInt32) :
    Json.option Json.uint32 ((Json.ofOption (fun n : UInt32 => .ofNat n.toNat) n).toDoc depth) =
      .ok n := by
  cases n with
  | none => rfl
  | some n => exact Json.map_eq_ok.2 ⟨n, uint32_spelled depth n, rfl⟩

theorem action_spelled (a : Action) : Action.read ((Json.string a.name).toDoc depth) = .ok a := by
  cases a <;> rfl

end Parts

namespace Cli.MappingWrite

variable {m : MappingWrite} {files : Files} {eid : String}

def locatorFields (m : MappingWrite) (rloc : String) : List (String × Json) :=
  [("rloc", .string rloc), ("priority", .ofNat m.priority.toNat), ("weight", .ofNat m.weight.toNat)]

def requestFields (m : MappingWrite) (eid : String) (locators : List Json) : List (String × Json) :=
  [("eid", .string eid), ("vni", .ofNat m.vni.toNat), ("action", .string m.action.name),
    ("authoritative", .bool m.authoritative), ("locators", .array locators)]

/-- The lifetime that the flags tell. Where there is none it may be left out. -/
inductive ToldLifetime (m : MappingWrite) : List (String × Json) → Prop
  | told : ToldLifetime m [("record_ttl", Json.ofOption (fun n : UInt32 => .ofNat n.toNat) m.ttl)]
  | omitted (absent : m.ttl = none) : ToldLifetime m []

/-- An object with what the flags tell, its fields and those of its locators in any order. -/
inductive Told (m : MappingWrite) (eid : String) : Json → Prop
  | object {fs ttl : List (String × Json)} {ls : List Json} (lifetime : ToldLifetime m ttl)
    (locators : List.Forall₂ (fun rloc l => ∃ gs, l = .object gs ∧ gs.Perm (m.locatorFields rloc))
      m.rlocs ls)
    (fields : fs.Perm (m.requestFields eid ls ++ ttl)) : Told m eid (.object fs)

def toldLocator (m : MappingWrite) (a : Address) : Locator :=
  { Locator.neutral a with priority := m.priority, weight := m.weight }

theorem readAddress_of_parse {s : String} {a : Address} (parsed : Address.parse s = .ok a)
    (depth : Nat) : EidMap.readAddress ((Json.string s).toDoc depth) = .ok a := by
  rw [readAddress_spelled, parsed]

section

variable {gs : List (String × Json)} {rloc : String} {depth : Nat}

theorem arranged_locatorFields (h : gs.Perm (m.locatorFields rloc)) :
    Arranged gs (m.locatorFields rloc) :=
  ⟨h, by simp [locatorFields]⟩

theorem read_locator {a : Address} (h : gs.Perm (m.locatorFields rloc))
    (parsed : Address.parse rloc = .ok a) :
    LocatorRequest.read ((Json.object gs).toDoc depth) = .ok (m.toldLocator a) := by
  have harranged := arranged_locatorFields h
  have haddress := readAddress_of_parse parsed (depth + 1)
  rw [LocatorRequest.read, harranged.record]
  · rw [harranged.get (f := LocatorRequest.rlocField) rfl rfl haddress,
      harranged.get (f := LocatorRequest.priorityField) rfl rfl (uint8_spelled (depth + 1) _),
      harranged.get (f := LocatorRequest.weightField) rfl rfl (uint8_spelled (depth + 1) _),
      harranged.get_absent (f := LocatorRequest.multicastPriorityField) rfl rfl rfl,
      harranged.get_absent (f := LocatorRequest.multicastWeightField) rfl rfl rfl,
      harranged.get_absent (f := LocatorRequest.localField) rfl rfl rfl,
      harranged.get_absent (f := LocatorRequest.probedField) rfl rfl rfl,
      harranged.get_absent (f := LocatorRequest.routedField) rfl rfl rfl]
    rfl
  · simp only [locatorFields, List.forall_mem_cons, List.not_mem_nil, false_implies, implies_true,
      and_true]
    exact ⟨⟨_, rfl, rfl, Json.check_guard haddress⟩,
      ⟨_, rfl, rfl, Json.check_guard (uint8_spelled (depth + 1) _)⟩,
      ⟨_, rfl, rfl, Json.check_guard (uint8_spelled (depth + 1) _)⟩⟩

end

def toldRequest (m : MappingWrite) (eid : Address) (rlocs : List Address) : MappingRequest :=
  ⟨eid, m.vni, m.ttl, m.action, m.authoritative, rlocs.map m.toldLocator⟩

structure Parsed (m : MappingWrite) (eid : String) (a : Address) (bs : List Address) : Prop where
  eid : Address.parse eid = .ok a
  rlocs : List.Forall₂ (fun rloc b => Address.parse rloc = .ok b) m.rlocs bs

variable {v : Json} {depth : Nat} {r : MappingRequest}

theorem read_locators {rlocs : List String} {ls : List Json} {bs : List Address}
    (told : List.Forall₂ (fun rloc l => ∃ gs, l = .object gs ∧ gs.Perm (m.locatorFields rloc))
      rlocs ls) (parsed : List.Forall₂ (fun rloc b => Address.parse rloc = .ok b) rlocs bs) :
    List.Forall₂ (fun l b => LocatorRequest.read (l.toDoc depth) = .ok b) ls
      (bs.map m.toldLocator) := by
  induction told generalizing bs with
  | nil =>
    cases parsed
    exact .nil
  | cons hl _ ih =>
    obtain ⟨gs, rfl, hgs⟩ := hl
    cases parsed with
    | cons hb hbs => exact .cons (read_locator hgs hb) (ih hbs)

theorem ToldLifetime.arranged {fs ttl : List (String × Json)} {ls : List Json}
    (h : ToldLifetime m ttl) (fields : fs.Perm (m.requestFields eid ls ++ ttl)) :
    Arranged fs (m.requestFields eid ls ++ ttl) := by
  refine ⟨fields, ?_⟩
  cases h with
  | told => simp [requestFields]
  | omitted absent => simp [requestFields]

theorem Told.read (told : m.Told eid v) {a : Address} {bs : List Address}
    (parsed : m.Parsed eid a bs) :
    MappingRequest.read (v.toDoc depth) = .ok (m.toldRequest a bs) := by
  obtain @⟨fs, ttl, ls, lifetime, locators, fields⟩ := told
  have harranged := lifetime.arranged fields
  have heid := readAddress_of_parse parsed.eid (depth + 1)
  have hlocators : Json.list LocatorRequest.read ((Json.array ls).toDoc (depth + 1)) =
      .ok (bs.map m.toldLocator) := Json.list_spelled (read_locators locators parsed.rlocs)
  have hauthoritative : Json.boolean ((Json.bool m.authoritative).toDoc (depth + 1)) =
      .ok m.authoritative := rfl
  rw [MappingRequest.read, harranged.record]
  · have httl : (Json.Parts.named (Json.spelled (depth + 1) fs)).get MappingRequest.recordTtlField =
        .ok m.ttl := by
      cases lifetime with
      | told => exact harranged.get rfl rfl (option_uint32_spelled (depth + 1) m.ttl)
      | omitted absent => exact harranged.get_absent rfl rfl (congrArg some absent.symm)
    rw [harranged.get (f := MappingRequest.eidField) rfl rfl heid,
      harranged.get (f := MappingRequest.vniField) rfl rfl (uint32_spelled (depth + 1) _), httl,
      harranged.get (f := MappingRequest.actionField) rfl rfl (action_spelled (depth + 1) _),
      harranged.get (f := MappingRequest.authoritativeField) rfl rfl hauthoritative,
      harranged.get (f := MappingRequest.locatorsField) rfl rfl hlocators]
    rfl
  · refine List.forall_mem_append.2 ⟨?_, ?_⟩
    · simp only [requestFields, List.forall_mem_cons, List.not_mem_nil, false_implies, implies_true,
        and_true]
      exact ⟨⟨_, rfl, rfl, Json.check_guard heid⟩,
        ⟨_, rfl, rfl, Json.check_guard (uint32_spelled (depth + 1) _)⟩,
        ⟨_, rfl, rfl, Json.check_guard (action_spelled (depth + 1) _)⟩,
        ⟨_, rfl, rfl, Json.check_guard hauthoritative⟩,
        ⟨_, rfl, rfl, Json.check_guard hlocators⟩⟩
    · cases lifetime with
      | told =>
        rw [List.forall_mem_singleton]
        exact ⟨_, rfl, rfl, Json.check_guard (option_uint32_spelled (depth + 1) m.ttl)⟩
      | omitted => exact fun f hf => absurd hf List.not_mem_nil

theorem parse_of_readAddress {s : String} {a : Address}
    (h : EidMap.readAddress ((Json.string s).toDoc depth) = .ok a) : Address.parse s = .ok a := by
  rw [readAddress_spelled] at h
  split at h <;> cases h
  assumption

theorem parsed_of_read_locators {rlocs : List String} {ls : List Json} {rs : List Locator}
    (told : List.Forall₂ (fun rloc l => ∃ gs, l = .object gs ∧ gs.Perm (m.locatorFields rloc))
      rlocs ls)
    (read : List.Forall₂ (fun l r => LocatorRequest.read (l.toDoc depth) = .ok r) ls rs) :
    ∃ bs, List.Forall₂ (fun rloc b => Address.parse rloc = .ok b) rlocs bs := by
  induction told generalizing rs with
  | nil => exact ⟨[], .nil⟩
  | cons hl _ ih =>
    obtain ⟨gs, rfl, hgs⟩ := hl
    cases read with
    | cons hr hrs =>
      obtain ⟨bs, hbs⟩ := ih hrs
      obtain ⟨p, hp, hbuild⟩ := Json.isParts_of_record hr
      obtain ⟨b, hb, -⟩ := Json.bind_eq_ok.1 hbuild
      obtain ⟨d, hd, hread⟩ := hp.get_required hb
      rw [(arranged_locatorFields hgs).member? rfl] at hd
      cases hd
      exact ⟨b :: bs, .cons (parse_of_readAddress hread) hbs⟩

theorem Told.parsed (told : m.Told eid v) (h : MappingRequest.read (v.toDoc depth) = .ok r) :
    ∃ a bs, m.Parsed eid a bs := by
  obtain ⟨lifetime, locators, fields⟩ := told
  have harranged := lifetime.arranged fields
  obtain ⟨p, hp, hbuild⟩ := Json.isParts_of_record h
  obtain ⟨a, ha, hbuild⟩ := Json.bind_eq_ok.1 hbuild
  obtain ⟨_, -, hbuild⟩ := Json.bind_eq_ok.1 hbuild
  obtain ⟨_, -, hbuild⟩ := Json.bind_eq_ok.1 hbuild
  obtain ⟨_, -, hbuild⟩ := Json.bind_eq_ok.1 hbuild
  obtain ⟨_, -, hbuild⟩ := Json.bind_eq_ok.1 hbuild
  obtain ⟨rs, hrs, -⟩ := Json.bind_eq_ok.1 hbuild
  obtain ⟨d, hd, heid⟩ := hp.get_required ha
  rw [harranged.member? rfl] at hd
  cases hd
  rcases hp.get_defaulted hrs with ⟨d, hd, hlist⟩ | ⟨hd, -⟩
  · rw [harranged.member? rfl] at hd
    cases hd
    have hread := Json.forall₂_of_list hlist
    rw [Json.toDoc, Json.toDocItems_eq] at hread
    obtain ⟨bs, hbs⟩ := parsed_of_read_locators locators (List.forall₂_map_left_iff.1 hread)
    exact ⟨a, bs, parse_of_readAddress heid, hbs⟩
  · rw [harranged.member? rfl] at hd
    cases hd

theorem Told.read_eq_ok (told : m.Told eid v) :
    MappingRequest.read (v.toDoc depth) = .ok r ↔
      ∃ a bs, m.Parsed eid a bs ∧ r = m.toldRequest a bs := by
  constructor
  · intro h
    obtain ⟨a, bs, hparsed⟩ := told.parsed h
    rw [told.read hparsed] at h
    cases h
    exact ⟨a, bs, hparsed, rfl⟩
  · rintro ⟨a, bs, hparsed, rfl⟩
    exact told.read hparsed

theorem readAddress_eq_ok {field text : String} {a : Address} :
    readAddress field text = .ok a ↔ Address.parse text = .ok a := by
  rw [readAddress]
  cases Address.parse text <;> simp

theorem locator_eq_ok {rloc : String} {l : Locator} :
    m.locator rloc = .ok l ↔ ∃ b, Address.parse rloc = .ok b ∧ m.toldLocator b = l := by
  rw [locator, Json.bind_eq_ok]
  simp only [readAddress_eq_ok]
  constructor
  · rintro ⟨b, hb, ⟨⟩⟩
    exact ⟨b, hb, rfl⟩
  · rintro ⟨b, hb, rfl⟩
    exact ⟨b, hb, rfl⟩

theorem mapM_locator_eq_ok {rlocs : List String} {ls : List Locator} :
    rlocs.mapM m.locator = .ok ls ↔
      ∃ bs, List.Forall₂ (fun rloc b => Address.parse rloc = .ok b) rlocs bs ∧
        bs.map m.toldLocator = ls := by
  induction rlocs generalizing ls with
  | nil =>
    constructor
    · rintro ⟨⟩
      exact ⟨[], .nil, rfl⟩
    · rintro ⟨_, ⟨⟩, rfl⟩
      rfl
  | cons rloc rlocs ih =>
    rw [List.mapM_cons, Json.bind_eq_ok]
    constructor
    · rintro ⟨l, hl, hls⟩
      obtain ⟨ls, htail, ⟨⟩⟩ := Json.bind_eq_ok.1 hls
      obtain ⟨b, hb, rfl⟩ := locator_eq_ok.1 hl
      obtain ⟨bs, hbs, rfl⟩ := ih.1 htail
      exact ⟨b :: bs, .cons hb hbs, rfl⟩
    · rintro ⟨_, _ | ⟨hb, hbs⟩, rfl⟩
      exact ⟨_, locator_eq_ok.2 ⟨_, hb, rfl⟩, Json.bind_eq_ok.2 ⟨_, ih.2 ⟨_, hbs, rfl⟩, rfl⟩⟩

theorem ofFlags_eq_ok (given : m.eid = some eid) :
    m.ofFlags = .ok r ↔ ∃ a bs, m.Parsed eid a bs ∧ r = m.toldRequest a bs := by
  rw [ofFlags, given]
  constructor
  · intro h
    obtain ⟨a, ha, h⟩ := Json.bind_eq_ok.1 h
    obtain ⟨ls, hls, ⟨⟩⟩ := Json.bind_eq_ok.1 h
    obtain ⟨bs, hbs, rfl⟩ := mapM_locator_eq_ok.1 hls
    exact ⟨a, bs, ⟨readAddress_eq_ok.1 ha, hbs⟩, rfl⟩
  · rintro ⟨a, bs, hparsed, rfl⟩
    exact Json.bind_eq_ok.2 ⟨a, readAddress_eq_ok.2 hparsed.eid,
      Json.bind_eq_ok.2 ⟨_, mapM_locator_eq_ok.2 ⟨bs, hparsed.rlocs, rfl⟩, rfl⟩⟩

theorem invalid_ofFlags (m : MappingWrite) :
    FailsAs (fun e => ∃ field reason, e = .invalid field reason) m.ofFlags := by
  have haddress : ∀ field text,
      FailsAs (fun e : Error => ∃ field reason, e = .invalid field reason)
        (readAddress field text) := by
    intro field text
    rw [readAddress]
    split
    · exact .ok _
    · exact .error ⟨_, _, rfl⟩
  rw [ofFlags]
  split
  · exact .error ⟨_, _, rfl⟩
  · refine (haddress _ _).bind fun eid => ?_
    refine (FailsAs.mapM (fun rloc => ?_) m.rlocs).bind fun locators => .ok _
    exact (haddress _ _).bind fun rloc => .ok _

def toldObject (m : MappingWrite) (eid : String) : Json :=
  .object (m.requestFields eid (m.rlocs.map fun rloc => .object (m.locatorFields rloc)) ++
    [("record_ttl", Json.ofOption (fun n : UInt32 => .ofNat n.toNat) m.ttl)])

theorem told_toldObject (m : MappingWrite) (eid : String) : m.Told eid (m.toldObject eid) :=
  .object .told (List.forall₂_map_right_iff.2 (List.forall₂_same.2 fun _ _ => ⟨_, rfl, .refl _⟩))
    (.refl _)

theorem natural_toldObject (m : MappingWrite) (eid : String) : (m.toldObject eid).Natural := by
  have huint8 : ∀ n : UInt8, Json.Natural (.ofNat n.toNat) := fun n =>
    .number (Nat.lt_trans n.toNat_lt (by decide))
  have huint32 : ∀ n : UInt32, Json.Natural (.ofNat n.toNat) := fun n =>
    .number (Nat.lt_trans n.toNat_lt (by decide))
  have hlocators : ∀ l ∈ m.rlocs.map fun rloc => Json.object (m.locatorFields rloc), l.Natural := by
    refine List.forall_mem_map.2 fun rloc _ => .object ?_
    simp only [locatorFields, List.forall_mem_cons, List.not_mem_nil, false_implies, implies_true,
      and_true]
    exact ⟨.string rloc, huint8 m.priority, huint8 m.weight⟩
  have httl : (Json.ofOption (fun n : UInt32 => Json.ofNat n.toNat) m.ttl).Natural := by
    cases m.ttl with
    | none => exact .null
    | some n => exact huint32 n
  refine .object (List.forall_mem_append.2 ⟨?_, List.forall_mem_singleton.2 httl⟩)
  simp only [requestFields, List.forall_mem_cons, List.not_mem_nil, false_implies, implies_true,
    and_true]
  exact ⟨.string eid, huint32 m.vni, .string _, .bool _, .array hlocators⟩

/-- What the flags tell and a file that holds the same make one and the same request, and so the
same post, or both are invalid. -/
theorem request_agrees {m' : MappingWrite} {name text : String} (given : m.eid = some eid)
    (flags : m.fromFile = none) (told : m.Told eid v) (file : m'.fromFile = some name)
    (stored : files.read name = .ok text) (spells : Spells text v) :
    (∃ r, m.request files = .ok r ∧ m'.request files = .ok r) ∨
      ∃ field reason field' reason', m.request files = .error (.invalid field reason) ∧
        m'.request files = .error (.invalid field' reason') := by
  have hflags : m.request files = m.ofFlags := by rw [request, flags]
  have hfile : m'.request files = ofFile files name := by rw [request, file]
  rw [hflags, hfile, ofFile, stored]
  dsimp only
  rw [spells.decodeText]
  cases hread : MappingRequest.read (v.toDoc 0) with
  | ok r => exact .inl ⟨r, (ofFlags_eq_ok given).2 (told.read_eq_ok.1 hread), rfl⟩
  | error e =>
    cases hof : m.ofFlags with
    | ok r =>
      rw [told.read_eq_ok.2 ((ofFlags_eq_ok given).1 hof)] at hread
      cases hread
    | error e' =>
      obtain ⟨field, reason, rfl⟩ := invalid_ofFlags m e' hof
      exact .inr ⟨field, reason, _, _, rfl, rfl⟩

def sample : MappingWrite :=
  ⟨some "10.0.0.0/8", 5, ["192.0.2.1", "2001:db8::1"], 2, 50, some 60, .drop, true, none⟩

def sampleFile : MappingWrite := { sample with fromFile := some "request.json" }

def sampleFiles : Files := [("request.json", (sample.toldObject "10.0.0.0/8").compact)]

theorem request_agrees_sample :
    ∃ r, sample.request sampleFiles = .ok r ∧ sampleFile.request sampleFiles = .ok r := by
  have hstored : sampleFiles.read "request.json" =
      .ok (sample.toldObject "10.0.0.0/8").compact := rfl
  have hagrees : (∃ r, sample.request sampleFiles = .ok r ∧
      sampleFile.request sampleFiles = .ok r) ∨ _ :=
    request_agrees rfl rfl (told_toldObject sample "10.0.0.0/8") rfl hstored
      (Json.spells_compact (natural_toldObject sample "10.0.0.0/8"))
  refine hagrees.resolve_right ?_
  rintro ⟨field, reason, field', reason', h, -⟩
  cases h

end Cli.MappingWrite

end EidMap
