import EidMap.Proofs.Service.Deletion
import Mathlib.Algebra.Module.Submodule.Lattice

/-!
# Rows addressed by their identifiers

The rows of all virtual networks stand in one table, and a row is looked up by its identifier alone.
An identifier leads to the first row that has it, and a removal posts the EID of that row; a later
row with the same identifier, of another virtual network say, cannot be addressed.
-/

namespace EidMap

open Json (Doc)
open Stored (entryDocs eidOf?)

structure Topic.IsFirst (t : Topic) (rows : List t.Row) (uri : String) (j : Nat) (b : t.Row) :
    Prop where
  at_place : rows[j]? = some b
  identifier : t.shelf.eidUri b = uri
  earlier : ∀ k < j, ∀ c, rows[k]? = some c → t.shelf.eidUri c ≠ uri

namespace Topic

variable {t : Topic} {rows : List t.Row} {uri : String}

theorem exists_isFirst {i : Nat} {a : t.Row} (h : rows[i]? = some a) :
    ∃ j b, j ≤ i ∧ t.IsFirst rows (t.shelf.eidUri a) j b ∧
      rows.find? (fun c => t.shelf.eidUri c == t.shelf.eidUri a) = some b := by
  obtain ⟨b, hb⟩ : ∃ b, rows.find? (fun c => t.shelf.eidUri c == t.shelf.eidUri a) = some b := by
    rw [← Option.isSome_iff_exists, List.find?_isSome]
    exact ⟨a, List.mem_of_getElem? h, beq_self_eq_true _⟩
  obtain ⟨hid, j, hj, hat, hearlier⟩ := List.find?_eq_some_iff_getElem.1 hb
  have hne : ∀ k < j, ∀ c, rows[k]? = some c → t.shelf.eidUri c ≠ t.shelf.eidUri a := by
    intro k hk c hc
    obtain ⟨_, rfl⟩ := List.getElem?_eq_some_iff.1 hc
    simpa using hearlier k hk
  refine ⟨j, b, ?_, ⟨?_, by simpa using hid, hne⟩, hb⟩
  · exact Nat.le_of_not_lt fun hi => hne i hi a h rfl
  · rw [List.getElem?_eq_getElem hj, hat]

theorem IsFirst.eq_of_le {i j : Nat} {a b : t.Row} (h : t.IsFirst rows uri j b)
    (hi : rows[i]? = some a) (hij : j ≤ i)
    (hid : ∀ k < i, ∀ c, rows[k]? = some c → t.shelf.eidUri c ≠ uri) : j = i ∧ b = a := by
  rcases Nat.eq_or_lt_of_le hij with rfl | hlt
  · exact ⟨rfl, Option.some.inj (h.at_place.symm.trans hi)⟩
  · exact absurd h.identifier (hid j hlt b h.at_place)

theorem entry_of_row {d : Doc} {db : Stored.Database} {j : Nat} {b : t.Row}
    (h : Stored.Database.readDocument d = .ok db) (hb : (t.shelf.rows db)[j]? = some b) :
    ∃ entry eid, (entryDocs t d)[j]? = some entry ∧ eidOf? t entry = some eid ∧
      (t.shelf.removal b).body = .object [("input", .object [("eid", eid)])] := by
  obtain ⟨hlength, hget⟩ := List.forall₂_iff_get.1 (t.forall₂_rows h)
  obtain ⟨hj, rfl⟩ := List.getElem?_eq_some_iff.1 hb
  have hj' : j < (entryDocs t d).length := hlength ▸ hj
  obtain ⟨-, eid, heid, hremoval⟩ := hget j hj' hj
  exact ⟨_, eid, List.getElem?_eq_getElem hj', heid, congrArg (·.body) hremoval⟩

end Topic

namespace Service

/-- The next load is answered with a document of the store. -/
structure Serves (s : Service) (body : String) (d : Stored.Database) : Prop where
  heard : s.network.takes s.reading? ≠ []
  reply : ∃ status, Rpc.isSuccess status = true ∧ s.network.reply 0 = .answer status body
  read : Json.decodeText Stored.Database.readDocument body = .ok d

theorem Serves.load {s : Service} {body : String} {d : Stored.Database} (h : s.Serves body d) :
    s.load s.network = .ok d := by
  obtain ⟨status, hsuccess, hreply⟩ := h.reply
  exact load_eq_ok.2 ⟨h.heard, hreply ▸ .document hsuccess h.read⟩

/-- An identifier leads to a row: a lookup returns the row, and a removal posts the EID of the entry
at its place in a document, as the same JSON value. -/
structure Leads (s : Service) (t : Topic) (d : Doc) (uri : String) (j : Nat) (b : t.Row) :
    Prop where
  returned : (s.lookup t.shelf uri).1 = .ok b
  removed : ∃ entry eid gets posts rest, (entryDocs t d)[j]? = some entry ∧
    eidOf? t entry = some eid ∧
    (s.delete t.shelf uri).2.network = s.network.after (gets ++ posts ++ rest) ∧
    gets = s.network.takes s.reading? ∧
    posts = s.network.takes (s.posting? t.removal (.object [("input", .object [("eid", eid)])])) ∧
    (∀ q ∈ gets, q.AsksDatabase s.settings.url) ∧
    (∀ q ∈ posts, q.AsksOperation s.settings.url t.removal.name
      (.object [("input", .object [("eid", eid)])])) ∧
    (s.Connects → gets ≠ [] ∧ posts ≠ [])

theorem Serves.leads {s : Service} {t : Topic} {body uri : String} {d : Stored.Database} {j : Nat}
    {b : t.Row} (h : s.Serves body d) (first : t.first? uri d = some b)
    (place : (t.shelf.rows d)[j]? = some b) : s.Leads t (Doc.ofText body).1 uri j b := by
  obtain ⟨entry, eid, hentry, heid, hbody⟩ :=
    Topic.entry_of_row (Json.read_of_decodeText h.read) place
  have hlookup := lookup_of_load (T := t.shelf.get s) h.load uri
  rw [put_self, first] at hlookup
  obtain ⟨sent, r, T, hcourse, hdelete⟩ := course_delete s t uri
  obtain ⟨rest, hsent⟩ := hcourse.posts h.load first
  refine ⟨congrArg Prod.fst hlookup, entry, eid, _, _, rest, hentry, heid, ?_, rfl, rfl,
    fun q hq => ?_, fun q hq => ?_, fun connects => ⟨connects.reads, connects.posts _ _⟩⟩
  · rw [hdelete, network_put, hsent, hbody]
  · obtain ⟨get, reading, rfl⟩ := Rpc.Network.mem_takes hq
    exact asksDatabase_of_reading? reading
  · obtain ⟨post, posting, rfl⟩ := Rpc.Network.mem_takes hq
    exact asksOperation_of_posting? posting

/-- The identifier of every row leads to the first row that has it, on any service that is answered
with the document the rows came from. This is the row itself if no earlier one has its identifier. -/
theorem first_row_addressed (t : Topic) {s s' : Service} {body : String} {d : Stored.Database}
    (h : s.Serves body d) (h' : s'.Serves body d) :
    ∃ T, (s.refresh t.shelf).1 = .ok T ∧ ∀ i a, T.items[i]? = some a →
      ∃ j b, t.IsFirst T.items (t.shelf.eidUri a) j b ∧
        s'.Leads t (Doc.ofText body).1 (t.shelf.eidUri a) j b ∧
        ((∀ k < i, ∀ c, T.items[k]? = some c → t.shelf.eidUri c ≠ t.shelf.eidUri a) →
          j = i ∧ b = a) := by
  have hrefresh := refresh_of_load (t := t) (T := t.shelf.get s) h.load
  rw [put_self] at hrefresh
  refine ⟨_, congrArg Prod.fst hrefresh, fun i a ha => ?_⟩
  rw [Table.items_shown] at ha ⊢
  obtain ⟨j, b, hji, hfirst, hfind⟩ := Topic.exists_isFirst ha
  exact ⟨j, b, hfirst, h'.leads hfind hfirst.at_place, hfirst.eq_of_le ha hji⟩

/-- A document with a mapping in network 0 and one in network 5, both with identifier `a`. Its
records are written as arrays. -/
def twins : String :=
  "[[[[0,[[\"a\",null,\x7b\"eid\":1\x7d]]],[5,[[\"a\",null,\x7b\"eid\":2\x7d]]]]]]"

def twin (eid : Int) : Stored.Mapping :=
  ⟨"a", none, ⟨.number (.integer eid), none, none, none, none, none, none, none, [], []⟩⟩

def twinNetworks : Stored.Database := ⟨[⟨0, [twin 1], []⟩, ⟨5, [twin 2], []⟩]⟩

def twinService : Service :=
  .new ⟨⟨"http", some ⟨"", none, .domain "odl", none⟩, .segments [""], none, none⟩, none, none,
    .systemDefaults, 30000⟩ [] ⟨fun _ => true, [.answer 200 twins], []⟩

theorem serves_twins : twinService.Serves twins twinNetworks :=
  ⟨scripted_heard [.answer 200 twins], ⟨200, rfl, rfl⟩, by cbv⟩

theorem twins_addressed :
    twinService.Serves twins twinNetworks ∧
      ∃ T, (twinService.refresh (Topic.shelf .mappings)).1 = .ok T ∧ ∀ i a, T.items[i]? = some a →
        ∃ j b, Topic.IsFirst .mappings T.items (Mapping.eidUri a) j b ∧
          twinService.Leads .mappings (Doc.ofText twins).1 (Mapping.eidUri a) j b ∧
          ((∀ k < i, ∀ c, T.items[k]? = some c → Mapping.eidUri c ≠ Mapping.eidUri a) →
            j = i ∧ b = a) :=
  ⟨serves_twins, first_row_addressed .mappings serves_twins serves_twins⟩

/-- The identifier of the mapping in network 5 leads to the one in network 0, and it is the EID of
that one that a removal posts. -/
theorem later_twin_not_addressed :
    ∃ T get post rest, ∃ a b : Mapping,
      (twinService.refresh (Topic.shelf .mappings)).1 = .ok T ∧
      T.items = [b, a] ∧ a.vni = 5 ∧ b.vni = 0 ∧
      (twinService.lookup (Topic.shelf .mappings) a.eidUri).1 = .ok b ∧
      (Rpc.Removal.ofMapping a).body = Rpc.eidInput (.number (.integer 2)) ∧
      (twinService.delete (Topic.shelf .mappings) a.eidUri).2.network =
        twinService.network.after (get :: post :: rest) ∧
      post.AsksOperation twinService.settings.url "remove-mapping"
        (Rpc.eidInput (.number (.integer 1))) := by
  have hload := serves_twins.load
  have hfirst : Topic.first? .mappings "a" twinNetworks = some (Mapping.ofStored 0 (twin 1)) :=
    rfl
  have hrefresh := refresh_of_load (t := .mappings) (T := twinService.mappings) hload
  have hlookup := lookup_of_load (t := .mappings) (T := twinService.mappings) hload "a"
  rw [hfirst] at hlookup
  have hconnects : twinService.Connects := connects_scripted [.answer 200 twins]
  obtain ⟨get, -, hget⟩ := Rpc.Network.exists_of_takes_ne_nil hconnects.reads
  obtain ⟨post, posting, hpost⟩ := Rpc.Network.exists_of_takes_ne_nil
    (hconnects.posts .removeMapping (Rpc.eidInput (.number (.integer 1))))
  obtain ⟨sent, r, T', hcourse, hdelete⟩ := course_delete twinService .mappings "a"
  obtain ⟨rest, hsent⟩ := hcourse.posts hload hfirst
  have hbody : ((Topic.shelf .mappings).removal (Mapping.ofStored 0 (twin 1))).body =
      Rpc.eidInput (.number (.integer 1)) := rfl
  have hremoval : Topic.removal .mappings = .removeMapping := rfl
  rw [hbody, hremoval, hget, hpost] at hsent
  refine ⟨_, get.received, post.received, rest, Mapping.ofStored 5 (twin 2),
    Mapping.ofStored 0 (twin 1), congrArg Prod.fst hrefresh, Table.items_shown _ _, rfl, rfl,
    congrArg Prod.fst hlookup, rfl, ?_, asksOperation_of_posting? posting⟩
  rw [show (Mapping.ofStored 5 (twin 2)).eidUri = "a" from rfl, hdelete, network_put, hsent]
  rfl

end Service

end EidMap
