import EidMap.Proofs.Address.RoundTrip
import EidMap.Proofs.Stored.RoundTrip

/-!
# What is sent is what is read back

A mapping that a client asks to add is sent as a record. When the store returns that record, the row
made of it has everything that was asked for and nothing else, and keeps the record itself.
-/

namespace EidMap

theorem Action.ofStored_name (a : Action) : Action.ofStored (some a.name) = a := by
  cases a <;> decide

theorem Locator.ofStored_toStored {l : Locator} (h : Address.ofWire l.address.toWire = l.address) :
    Locator.ofStored l.toStored = l := by
  rw [ofStored, toStored, h]

namespace Mapping

open Stored (Record)

variable (eid : Address) (recordTtl : Option UInt32) (action : Action) (authoritative : Bool)
  (locators : List Locator)

theorem regular_requestRecord :
    (requestRecord eid recordTtl action authoritative locators).Regular :=
  ⟨nofun, nofun, .nil, nofun⟩

theorem arranged_requestRecord (heid : eid.toWire.ordered = eid.toWire)
    (hlocators : ∀ l ∈ locators, l.address.toWire.ordered = l.address.toWire) :
    (requestRecord eid recordTtl action authoritative locators).arranged =
      requestRecord eid recordTtl action authoritative locators := by
  have hmap : (locators.map Locator.toStored).map Stored.Locator.arranged =
      locators.map Locator.toStored := by
    rw [List.map_map]
    refine List.map_congr_left fun l hl => ?_
    rw [Function.comp_apply, Stored.Locator.arranged, Locator.toStored, hlocators l hl]
  rw [Record.arranged, requestRecord, heid, hmap]
  rfl

variable {eid locators}

theorem ofStored_requestRecord (heid : Address.ofWire eid.toWire = eid)
    (hlocators : ∀ l ∈ locators, Address.ofWire l.address.toWire = l.address) (vni : UInt32)
    (eidUri : String) (origin : Option String) :
    ofStored vni ⟨eidUri, origin, requestRecord eid recordTtl action authoritative locators⟩ =
      { vni, eidUri, origin, eid, recordTtl, action, authoritative
        mapVersion := none
        timestamp := none
        siteId := none
        xtrId := none
        locators
        summary := Summary.ofLocators locators action
        raw := (requestRecord eid recordTtl action authoritative locators).toJson.ordered } := by
  have hmap : (locators.map Locator.toStored).map Locator.ofStored = locators := by
    rw [List.map_map]
    refine (List.map_congr_left fun l hl => ?_).trans (List.map_id _)
    exact Locator.ofStored_toStored (hlocators l hl)
  simp only [ofStored, requestRecord, heid, hmap, Action.ofStored_name, Option.getD_some,
    Option.bind_none]

/-- A record that was sent and comes back in a mapping, as it was written or, if its addresses are
written in order, in order, makes a row with all that was sent and with the record. -/
theorem sent_record_read (heid : Address.ofWire eid.toWire = eid)
    (hlocators : ∀ l ∈ locators, Address.ofWire l.address.toWire = l.address) {j k : Json}
    (hj : j = (requestRecord eid recordTtl action authoritative locators).toJson)
    (hk : k = j ∨ k = j.ordered ∧ eid.toWire.ordered = eid.toWire ∧
      ∀ l ∈ locators, l.address.toWire.ordered = l.address.toWire)
    (vni : UInt32) (eidUri : String) (origin : Option String) :
    ∃ m, Stored.Mapping.read (Json.object ([("eid-uri", .string eidUri)] ++
          Json.optionalField "origin" .string origin ++ [("mapping-record", k)])) = .ok m ∧
      ofStored vni m = { vni, eidUri, origin, eid, recordTtl, action, authoritative
                         mapVersion := none
                         timestamp := none
                         siteId := none
                         xtrId := none
                         locators
                         summary := Summary.ofLocators locators action
                         raw := j.ordered } := by
  have hwritten := Record.read_toJson
    (regular_requestRecord eid recordTtl action authoritative locators)
  have hread : Record.read k =
      .ok (requestRecord eid recordTtl action authoritative locators) := by
    subst hj
    rcases hk with rfl | ⟨rfl, hordered, hall⟩
    · exact hwritten
    · have harranged := Record.arranges_read _ _ hwritten
      rwa [arranged_requestRecord _ _ _ _ _ hordered hall] at harranged
  subst hj
  exact ⟨_, Stored.Mapping.read_fields hread, ofStored_requestRecord _ _ _ heid hlocators _ _ _⟩

def dropRecord : Json :=
  (requestRecord (.asNumber 1) (some 60) .drop true [.neutral (.asNumber 2)]).toJson

theorem drop_record_read :
    ∃ m, Stored.Mapping.read (Json.object [("eid-uri", .string "a"),
          ("mapping-record", dropRecord.ordered)]) = .ok m ∧
      (ofStored 7 m).eid = .asNumber 1 ∧ (ofStored 7 m).action = .drop ∧
      (ofStored 7 m).locators = [.neutral (.asNumber 2)] ∧
      (ofStored 7 m).raw = dropRecord.ordered := by
  obtain ⟨m, hm, hrow⟩ := sent_record_read (some 60) .drop true (Address.ofWire_asNumber 1)
    (List.forall_mem_singleton.2 (Address.ofWire_asNumber 2)) (j := dropRecord) rfl
    (.inr ⟨rfl, rfl, List.forall_mem_singleton.2 rfl⟩) 7 "a" none
  exact ⟨m, hm, by rw [hrow], by rw [hrow], by rw [hrow], by rw [hrow]⟩

end Mapping

end EidMap
