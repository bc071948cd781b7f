import EidMap.Proofs.Stored.Entries
import EidMap.Service.Basic

/-!
# The shelves of a service and their rows

Mappings and keys are kept in the same way: one shelf for each topic. The rows that a shelf takes
from a database are those entries of the document that are about its topic, in document order, and
the removal of a row carries the EID of its entry unchanged.
-/

namespace EidMap

open Json (Doc)
open Stored (entryDocs uriOf? eidOf?)

namespace Topic

abbrev Row : Topic → Type
  | .mappings => Mapping
  | .keys => KeyEntry

def shelf : (t : Topic) → Service.Shelf t.Row
  | .mappings => Service.mappingShelf
  | .keys => Service.keyShelf

def removal : Topic → Rpc.Operation
  | .mappings => .removeMapping
  | .keys => .removeKey

/-- The row that an entry of a document becomes, as far as its removal needs it. -/
def Lists (t : Topic) (entry : Doc) (a : t.Row) : Prop :=
  uriOf? entry = some (t.shelf.eidUri a) ∧ ∃ eid, eidOf? t entry = some eid ∧
    t.shelf.removal a = ⟨t.removal, t.shelf.eidUri a, Rpc.eidInput eid⟩

theorem lists_mapping {e : Doc} {m : Stored.Mapping} (vni : UInt32)
    (h : Stored.Mapping.read e = .ok m) : Lists .mappings e (Mapping.ofStored vni m) := by
  obtain ⟨huri, heid, hordered, hextra⟩ := Stored.Mapping.entry_of_read h
  have hraw : (Mapping.ofStored vni m).raw.field? "eid" = some m.record.eid :=
    (Stored.Record.eid_toJson hextra).trans (congrArg some hordered)
  refine ⟨huri, m.record.eid, heid, ?_⟩
  have hstored : Rpc.storedEid (Mapping.ofStored vni m).raw (Mapping.ofStored vni m).eid =
      m.record.eid := by
    rw [Rpc.storedEid, hraw, Option.getD_some]
  exact congrArg (fun eid => Rpc.Removal.mk .removeMapping m.eidUri (Rpc.eidInput eid)) hstored

theorem lists_key {e : Doc} {k : Stored.Key} (vni : UInt32) (h : Stored.Key.read e = .ok k) :
    Lists .keys e (KeyEntry.ofStored vni k) := by
  obtain ⟨huri, heid, hordered⟩ := Stored.Key.entry_of_read h
  have hraw : (KeyEntry.ofStored vni k).raw.field? "eid" = some k.eid :=
    (Stored.Key.eid_toJson { k with secret := k.secret.masked }).trans (congrArg some hordered)
  refine ⟨huri, k.eid, heid, ?_⟩
  have hstored : Rpc.storedEid (KeyEntry.ofStored vni k).raw (KeyEntry.ofStored vni k).eid =
      k.eid := by
    rw [Rpc.storedEid, hraw, Option.getD_some]
  exact congrArg (fun eid => Rpc.Removal.mk .removeKey k.eidUri (Rpc.eidInput eid)) hstored

theorem forall₂_rows (t : Topic) {d : Doc} {db : Stored.Database}
    (h : Stored.Database.readDocument d = .ok db) :
    List.Forall₂ t.Lists (entryDocs t d) (t.shelf.rows db) := by
  have hnetworks := Stored.forall₂_networks h
  cases t with
  | mappings =>
    have hrows : ∀ {n : Doc} {m : Stored.Network}, Stored.Network.read n = .ok m →
        List.Forall₂ (Lists .mappings) ((n.member? ["mapping"] 1).elim [] Doc.elements)
          (m.mappings.map (Mapping.ofStored m.vni)) := fun hn =>
      List.forall₂_map_right_iff.2
        ((Stored.Network.forall₂_entries hn).1.imp fun _ _ => lists_mapping _)
    exact List.rel_flatMap hnetworks fun _ _ => hrows
  | keys =>
    have hrows : ∀ {n : Doc} {m : Stored.Network}, Stored.Network.read n = .ok m →
        List.Forall₂ (Lists .keys) ((n.member? ["authentication-key"] 2).elim [] Doc.elements)
          (m.keys.map (KeyEntry.ofStored m.vni)) := fun hn =>
      List.forall₂_map_right_iff.2
        ((Stored.Network.forall₂_entries hn).2.imp fun _ _ => lists_key _)
    exact List.rel_flatMap hnetworks fun _ _ => hrows

theorem rel_find? {α β : Type} {R : α → β → Prop} {p : α → Bool} {q : β → Bool} {as : List α}
    {bs : List β} (h : List.Forall₂ R as bs) (hpq : ∀ a b, R a b → p a = q b) :
    Option.Rel R (as.find? p) (bs.find? q) := by
  induction h with
  | nil => exact .none
  | @cons a b as bs hab _ ih =>
    rw [List.find?_cons, List.find?_cons, hpq a b hab]
    cases q b with
    | true => exact .some hab
    | false => exact ih

def firstEntry? (t : Topic) (uri : String) (d : Doc) : Option Doc :=
  (entryDocs t d).find? fun e => uriOf? e == some uri

def first? (t : Topic) (uri : String) (db : Stored.Database) : Option t.Row :=
  (t.shelf.rows db).find? fun a => t.shelf.eidUri a == uri

theorem first?_empty (t : Topic) (uri : String) : t.first? uri .empty = none := by
  cases t <;> rfl

theorem rel_first? (t : Topic) (uri : String) {d : Doc} {db : Stored.Database}
    (h : Stored.Database.readDocument d = .ok db) :
    Option.Rel t.Lists (t.firstEntry? uri d) (t.first? uri db) := by
  refine rel_find? (t.forall₂_rows h) fun e a ha => ?_
  rw [ha.1]
  rfl

theorem operation_removal (t : Topic) (a : t.Row) : (t.shelf.removal a).operation = t.removal := by
  cases t <;> rfl

end Topic

end EidMap
