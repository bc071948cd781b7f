import EidMap.Mapping
import EidMap.Proofs.Json.Member
import EidMap.Proofs.Json.Order
import EidMap.Table.Status

/-!
# Entries of a database document

The entries of a document in document order, found along its members alone, and what a database read
from the document holds for each of them: its identifier, and its EID as the same JSON value.
-/

namespace EidMap.Stored

open Json (Doc IsParts isParts_of_record isParts_of_openRecord forall₂_of_list bind_eq_ok)

def networkDocs (d : Doc) : List Doc :=
  ((d.member? ["mapping-database"] 0).bind (·.member? ["virtual-network-identifier"] 0)).elim []
    Doc.elements

/-- The entries about a topic, those of one network after those of another. -/
def entryDocs (t : Topic) (d : Doc) : List Doc :=
  (networkDocs d).flatMap fun n =>
    match t with
    | .mappings => (n.member? ["mapping"] 1).elim [] Doc.elements
    | .keys => (n.member? ["authentication-key"] 2).elim [] Doc.elements

def uriOf? (entry : Doc) : Option String := (entry.member? ["eid-uri"] 0).bind Doc.string?

/-- The EID in an entry, as a JSON value: the text of a number is not kept. -/
def eidOf? (t : Topic) (entry : Doc) : Option Json :=
  match t with
  | .mappings =>
    ((entry.member? ["mapping-record"] 2).bind (·.member? ["eid"] 0)).bind (·.capture.toOption)
  | .keys => (entry.member? ["eid"] 1).bind (·.capture.toOption)

theorem forall₂_networks {d : Doc} {db : Database} (h : Database.readDocument d = .ok db) :
    List.Forall₂ (fun n m => Network.read n = .ok m) (networkDocs d) db.networks := by
  obtain ⟨p, hp, h⟩ := isParts_of_record h
  rcases hp.get_defaulted h with ⟨m, hm, h⟩ | ⟨hm, rfl⟩
  · obtain ⟨q, hq, h⟩ := isParts_of_record h
    obtain ⟨ns, hns, h⟩ := bind_eq_ok.1 h
    cases h
    have hm : d.member? ["mapping-database"] 0 = some m := hm
    rcases hq.get_defaulted hns with ⟨l, hl, h⟩ | ⟨hl, rfl⟩
    · have hl : m.member? ["virtual-network-identifier"] 0 = some l := hl
      simp only [networkDocs, hm, hl, Option.bind_some, Option.elim_some]
      exact forall₂_of_list h
    · have hl : m.member? ["virtual-network-identifier"] 0 = none := hl
      simp only [networkDocs, hm, hl, Option.bind_some, Option.elim_none]
      exact .nil
  · have hm : d.member? ["mapping-database"] 0 = none := hm
    simp only [networkDocs, hm, Option.bind_none, Option.elim_none]
    exact .nil

theorem forall₂_of_defaulted_list {α : Type} {names : List String} {d : Doc} {p : Json.Parts Doc}
    (hp : IsParts names d p) {name : String} {read : Doc → Json.Decoded α} {as : List α}
    (h : p.get (Json.defaulted name (Json.list read) []) = .ok as) :
    List.Forall₂ (fun e a => read e = .ok a)
      ((d.member? [name] (names.idxOf name)).elim [] Doc.elements) as := by
  rcases hp.get_defaulted h with ⟨l, hl, h⟩ | ⟨hl, rfl⟩
  · rw [hl]
    exact forall₂_of_list h
  · rw [hl]
    exact .nil

theorem Network.forall₂_entries {n : Doc} {m : Network} (h : Network.read n = .ok m) :
    List.Forall₂ (fun e a => Mapping.read e = .ok a)
        ((n.member? ["mapping"] 1).elim [] Doc.elements) m.mappings ∧
      List.Forall₂ (fun e a => Key.read e = .ok a)
        ((n.member? ["authentication-key"] 2).elim [] Doc.elements) m.keys := by
  obtain ⟨p, hp, h⟩ := isParts_of_record h
  obtain ⟨vni, -, h⟩ := bind_eq_ok.1 h
  obtain ⟨ms, hms, h⟩ := bind_eq_ok.1 h
  obtain ⟨ks, hks, h⟩ := bind_eq_ok.1 h
  cases h
  exact ⟨forall₂_of_defaulted_list hp hms, forall₂_of_defaulted_list hp hks⟩

theorem uriOf?_eq {names : List String} {e : Doc} {p : Json.Parts Doc} (hp : IsParts names e p)
    (place : names.idxOf "eid-uri" = 0) {s : String}
    (h : p.get (Json.required "eid-uri" Json.text) = .ok s) : uriOf? e = some s := by
  obtain ⟨m, hm, h⟩ := hp.get_required h
  rw [place] at hm
  rw [uriOf?, hm]
  exact Json.string?_of_text h

theorem Record.eid_of_read {d : Doc} {r : Record} (h : Record.read d = .ok r) :
    (∃ m, d.member? ["eid"] 0 = some m ∧ m.capture = .ok r.eid) ∧ "eid" ∉ r.extra.map Prod.fst := by
  obtain ⟨p, extra, hp, h, hextra⟩ := isParts_of_openRecord h
  obtain ⟨eid, heid, h⟩ := bind_eq_ok.1 h
  obtain ⟨_, -, h⟩ := bind_eq_ok.1 h
  obtain ⟨_, -, h⟩ := bind_eq_ok.1 h
  obtain ⟨_, -, h⟩ := bind_eq_ok.1 h
  obtain ⟨_, -, h⟩ := bind_eq_ok.1 h
  obtain ⟨_, -, h⟩ := bind_eq_ok.1 h
  obtain ⟨_, -, h⟩ := bind_eq_ok.1 h
  obtain ⟨_, -, h⟩ := bind_eq_ok.1 h
  obtain ⟨_, -, h⟩ := bind_eq_ok.1 h
  cases h
  refine ⟨?_, fun hmem => ?_⟩
  · obtain ⟨m, hm, h⟩ := hp.get_required heid
    exact ⟨m, hm, Json.capture_of_value h⟩
  · obtain ⟨f, hf, hfst⟩ := List.mem_map.1 hmem
    have hfalse := hextra "eid" (hfst ▸ List.mem_map_of_mem (Json.mem_of_mem_sortFields hf))
    cases hfalse

theorem Mapping.entry_of_read {e : Doc} {m : Mapping} (h : Mapping.read e = .ok m) :
    uriOf? e = some m.eidUri ∧ eidOf? .mappings e = some m.record.eid ∧
      m.record.eid.ordered = m.record.eid ∧ "eid" ∉ m.record.extra.map Prod.fst := by
  obtain ⟨p, hp, h⟩ := isParts_of_record h
  obtain ⟨uri, huri, h⟩ := bind_eq_ok.1 h
  obtain ⟨origin, -, h⟩ := bind_eq_ok.1 h
  obtain ⟨r, hr, h⟩ := bind_eq_ok.1 h
  cases h
  obtain ⟨d, hd, hr⟩ := hp.get_required hr
  obtain ⟨⟨x, hx, hcapture⟩, hextra⟩ := Record.eid_of_read hr
  have hd : e.member? ["mapping-record"] 2 = some d := hd
  refine ⟨uriOf?_eq hp rfl huri, ?_, Json.ordered_of_capture hcapture, hextra⟩
  rw [eidOf?, hd, Option.bind_some, hx, Option.bind_some, hcapture]
  rfl

theorem Key.entry_of_read {e : Doc} {k : Key} (h : Key.read e = .ok k) :
    uriOf? e = some k.eidUri ∧ eidOf? .keys e = some k.eid ∧ k.eid.ordered = k.eid := by
  obtain ⟨p, hp, h⟩ := isParts_of_record h
  obtain ⟨uri, huri, h⟩ := bind_eq_ok.1 h
  obtain ⟨eid, heid, h⟩ := bind_eq_ok.1 h
  obtain ⟨secret, -, h⟩ := bind_eq_ok.1 h
  cases h
  obtain ⟨x, hx, heid⟩ := hp.get_required heid
  have hx : e.member? ["eid"] 1 = some x := hx
  have hcapture := Json.capture_of_value heid
  refine ⟨uriOf?_eq hp rfl huri, ?_, Json.ordered_of_capture hcapture⟩
  rw [eidOf?, hx, Option.bind_some, hcapture]
  rfl

theorem mem_optionalField {α : Type} {name n : String} {f : α → Json} {a : Option α}
    (h : n ∈ (Json.optionalField name f a).map Prod.fst) : n = name := by
  cases a with
  | none => cases h
  | some b => exact List.mem_singleton.1 h

theorem mem_listField {α : Type} {name n : String} {f : α → Json} {as : List α}
    (h : n ∈ (listField name f as).map Prod.fst) : n = name := by
  cases as with
  | nil => cases h
  | cons a as => exact List.mem_singleton.1 h

theorem Record.eid_toJson {r : Record} (h : "eid" ∉ r.extra.map Prod.fst) :
    r.toJson.ordered.field? "eid" = some r.eid.ordered := by
  simp only [Record.toJson, List.cons_append, List.nil_append]
  refine Json.field?_ordered [] fun hmem => ?_
  simp only [List.map_append, List.mem_append] at hmem
  rcases hmem with (((((((hn | hn) | hn) | hn) | hn) | hn) | hn) | hn) | hn
  · exact absurd (mem_optionalField hn) (by decide)
  · exact absurd (mem_optionalField hn) (by decide)
  · exact absurd (mem_optionalField hn) (by decide)
  · exact absurd (mem_optionalField hn) (by decide)
  · exact absurd (mem_optionalField hn) (by decide)
  · exact absurd (mem_optionalField hn) (by decide)
  · exact absurd (mem_optionalField hn) (by decide)
  · exact absurd (mem_listField hn) (by decide)
  · exact h hn

theorem Key.eid_toJson (k : Key) : k.toJson.ordered.field? "eid" = some k.eid.ordered :=
  Json.field?_ordered [("eid-uri", .string k.eidUri)] (by simp)

end EidMap.Stored
