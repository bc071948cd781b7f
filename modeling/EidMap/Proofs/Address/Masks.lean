import EidMap.Proofs.Address.RoundTrip
import EidMap.Proofs.Json.Reordering

/-!
# Mask lengths that are left out

An object need not spell out the mask lengths of an instance or of a source-destination pair. What is
left out is the mask length of the address itself, which then stands in the address no more: the object
reads as the one with the bare address and the mask length spelled out.
-/

namespace EidMap.Address

open Json (Parts lookup optional check_of_get)

variable {fs : List (String × Json)}

/-- A mask length under its name, which is left out or `null` if there is none. -/
inductive HasMask (name : String) (fs : List (String × Json)) : Option UInt8 → Prop
  | absent (h : lookup name fs = none) : HasMask name fs none
  | null (h : lookup name fs = some .null) : HasMask name fs none
  | given (n : UInt8) (h : lookup name fs = some (.ofNat n.toNat)) : HasMask name fs (some n)

theorem HasMask.get {name : String} {mask : Option UInt8} (h : HasMask name fs mask) :
    (Parts.named fs).get (optional name Json.uint8) = .ok mask := by
  cases h with
  | absent h => exact Json.get_of_lookup_eq_none rfl h rfl
  | null h => exact Json.get_of_lookup rfl h rfl
  | given n h => exact Json.get_of_lookup rfl h (Json.option_uint8_ofNat n)

/-- The objects that hold a payload of the given name which is an object itself. What is asked of its
fields does not keep others from standing beside them. -/
inductive Holds (name : String) (asked : List (String × Json) → Prop) : Json → Prop
  | object {outer fs : List (String × Json)} (named : payloadName? outer = some name)
      (payload : lookup name outer = some (.object fs)) (distinct : (fs.map Prod.fst).Nodup)
      (fields : asked fs) : Holds name asked (.object outer)

theorem Holds.ofWire_eq {name : String} {asked : List (String × Json) → Prop} {v : Json} {a : Address}
    (h : Holds name asked v) (hname : name ≠ "no-address")
    (read : ∀ fs, (fs.map Prod.fst).Nodup → asked fs → FromPayload (.object fs) name a) :
    ofWire v = a := by
  cases h with
  | object named payload distinct fields =>
    exact ofWire_object named hname payload (read _ distinct fields)

structure InstanceFields (iid : UInt32) (mask : Option UInt8) (x : Json)
    (fs : List (String × Json)) : Prop where
  iid : lookup "iid" fs = some (.ofNat iid.toNat)
  mask : HasMask "mask-length" fs mask
  address : lookup "address" fs = some x

structure PairFields (source : Json) (m : Option UInt8) (dest : Json) (n : Option UInt8)
    (fs : List (String × Json)) : Prop where
  source : lookup "source" fs = some source
  sourceMask : HasMask "source-mask-length" fs m
  dest : lookup "dest" fs = some dest
  destMask : HasMask "dest-mask-length" fs n

theorem InstanceFields.read {iid : UInt32} {mask : Option UInt8} {x : Json}
    (h : InstanceFields iid mask x fs) (distinct : (fs.map Prod.fst).Nodup) :
    Payload.InstanceId.read (.object fs) = .ok ⟨iid, mask, x⟩ := by
  open Payload.InstanceId in
  have hi : (Parts.named fs).get iidField = .ok iid :=
    Json.get_of_lookup rfl h.iid (Json.uint32_ofNat iid)
  have hm : (Parts.named fs).get maskField = .ok mask := h.mask.get
  have hx : (Parts.named fs).get addressField = .ok x :=
    Json.get_of_lookup rfl h.address (Json.value_eq_ok.2 rfl)
  rw [Payload.InstanceId.read, Json.record_of_checks (by decide) distinct, hi, hm, hx]
  · rfl
  · simp only [List.forall_mem_cons]
    exact ⟨check_of_get rfl hi, check_of_get rfl hm, check_of_get rfl hx, List.forall_mem_nil _⟩

theorem PairFields.read {source dest : Json} {m n : Option UInt8} (h : PairFields source m dest n fs)
    (distinct : (fs.map Prod.fst).Nodup) :
    Payload.SourceDest.read (.object fs) = .ok ⟨source, dest, m, n⟩ := by
  open Payload.SourceDest in
  have hs : (Parts.named fs).get sourceField = .ok source :=
    Json.get_of_lookup rfl h.source (Json.value_eq_ok.2 rfl)
  have hd : (Parts.named fs).get destField = .ok dest :=
    Json.get_of_lookup rfl h.dest (Json.value_eq_ok.2 rfl)
  have hm : (Parts.named fs).get sourceMaskField = .ok m := h.sourceMask.get
  have hn : (Parts.named fs).get destMaskField = .ok n := h.destMask.get
  rw [Payload.SourceDest.read, Json.record_of_checks (by decide) distinct, hs, hd, hm, hn]
  · rfl
  · simp only [List.forall_mem_cons]
    exact ⟨check_of_get rfl hs, check_of_get rfl hd, check_of_get rfl hm, check_of_get rfl hn,
      List.forall_mem_nil _⟩

theorem holds_tagged {name ending : String} (he : Ending ending) (hn : Names name)
    {asked : List (String × Json) → Prop} (distinct : (fs.map Prod.fst).Nodup) (fields : asked fs) :
    Holds name asked (tagged (name ++ ending) name (.object fs)) :=
  .object (payloadName?_tagged he hn.colon _) (hn.lookup _ _) distinct fields

theorem holds_instanceId (iid : UInt32) (mask : UInt8) (a : Address) :
    Holds "instance-id" (InstanceFields iid (some mask) (toWire a))
      (toWire (.instanceId iid mask a)) :=
  holds_tagged .lcaf (by constructor <;> simp) (by simp) ⟨rfl, .given _ rfl, rfl⟩

theorem holds_sourceDest (source dest : Address) (m n : UInt8) :
    Holds "source-dest-key" (PairFields (toWire source) (some m) (toWire dest) (some n))
      (toWire (.sourceDest source m dest n)) :=
  holds_tagged .lcaf (by constructor <;> simp) (by simp) ⟨rfl, .given _ rfl, rfl, .given _ rfl⟩

section Prefixes

variable {x y v : Json} {a b : Address} {m n : UInt8} {iid : UInt32}

theorem ofWire_toWire_of_splitPrefix (hx : (ofWire x).splitPrefix = (a, m)) :
    ofWire (toWire a) = a := by
  have ha := (wellFormed_ofWire x).splitPrefix
  rw [hx] at ha
  exact ha.ofWire_toWire

theorem bare_of_splitPrefix {c : Address} (hc : c.splitPrefix = (a, m)) : a.Bare := by
  have ha := bare_splitPrefix c
  rwa [hc] at ha

theorem splitPrefix_toWire (ha : ofWire (toWire a) = a) (bare : a.Bare) :
    (ofWire (toWire a)).splitPrefix = (a, a.splitPrefix.2) := by
  rw [ha]
  exact Prod.ext (splitPrefix_of_bare bare) rfl

theorem ofWire_unmasked (hx : (ofWire x).splitPrefix = (a, m))
    (hv : Holds "instance-id" (InstanceFields iid none x) v) : ofWire v = .instanceId iid m a := by
  refine hv.ofWire_eq (by decide) fun fs distinct fields => ?_
  have hp := FromPayload.unmasked (fields.read distinct)
  rwa [hx] at hp

theorem ofWire_masked (ha : ofWire (toWire a) = a)
    (hv : Holds "instance-id" (InstanceFields iid (some m) (toWire a)) v) :
    ofWire v = .instanceId iid m a := by
  refine hv.ofWire_eq (by decide) fun fs distinct fields => ?_
  have hp := FromPayload.instanceId (fields.read distinct)
  rwa [ha] at hp

theorem ofWire_pair {k l : Option UInt8} (hx : (ofWire x).splitPrefix = (a, m))
    (hy : (ofWire y).splitPrefix = (b, n)) (hv : Holds "source-dest-key" (PairFields x k y l) v) :
    ofWire v = .sourceDest a (k.getD m) b (l.getD n) := by
  refine hv.ofWire_eq (by decide) fun fs distinct fields => ?_
  have hp := FromPayload.sourceDest (fields.read distinct)
  rwa [hx, hy] at hp

/-- An object without a mask length is read as the one that has the bare address and its prefix as the
mask length. A pair never keeps a prefix in its addresses, whether its mask lengths are left out or not. -/
theorem omitted_mask_is_prefix (hx : (ofWire x).splitPrefix = (a, m))
    (hy : (ofWire y).splitPrefix = (b, n)) :
    (∀ iid v w, Holds "instance-id" (InstanceFields iid none x) v →
      Holds "instance-id" (InstanceFields iid (some m) (toWire a)) w →
        ofWire v = ofWire w ∧ ofWire w = .instanceId iid m a) ∧
      (∀ k l v w, Holds "source-dest-key" (PairFields x k y l) v →
        Holds "source-dest-key"
            (PairFields (toWire a) (some (k.getD m)) (toWire b) (some (l.getD n))) w →
          ofWire v = ofWire w ∧ ofWire w = .sourceDest a (k.getD m) b (l.getD n)) ∧
        a.Bare ∧ b.Bare := by
  have ha := ofWire_toWire_of_splitPrefix hx
  have hb := ofWire_toWire_of_splitPrefix hy
  have bareA := bare_of_splitPrefix hx
  have bareB := bare_of_splitPrefix hy
  refine ⟨fun iid v w hv hw => ?_, fun k l v w hv hw => ?_, bareA, bareB⟩
  · rw [ofWire_unmasked hx hv, ofWire_masked ha hw]
    exact ⟨rfl, rfl⟩
  · rw [ofWire_pair hx hy hv,
      ofWire_pair (splitPrefix_toWire ha bareA) (splitPrefix_toWire hb bareB) hw]
    exact ⟨rfl, rfl⟩

/-- A prefix in an instance without a mask length, and in a pair where one mask length is `null`. -/
theorem prefixes_fill_masks :
    let x := Json.string "10.1.0.0/16"
    let v := Json.object [("instance-id", .object [("address", x), ("iid", .ofNat 3)])]
    let w := Json.object [("address-type", .string "source-dest-key-lcaf"), ("source-dest-key",
      .object [("source", x), ("note", .null), ("source-mask-length", .null), ("dest", x),
        ("dest-mask-length", .ofNat 20)])]
    ∃ a : Address, (ofWire x).splitPrefix = (a, 16) ∧ ofWire v = ofWire (toWire (.instanceId 3 16 a)) ∧
      ofWire w = ofWire (toWire (.sourceDest a 16 a 20)) := by
  intro x v w
  have hx : (ofWire x).splitPrefix = (.ipv4 ⟨10, 1, 0, 0⟩ none, 16) := by
    rw [ofWire]
    rfl
  have hv : Holds "instance-id" (InstanceFields 3 none x) v :=
    .object rfl rfl (by decide) ⟨rfl, .absent rfl, rfl⟩
  have hw : Holds "source-dest-key" (PairFields x none x (some 20)) w :=
    .object rfl rfl (by decide) ⟨rfl, .null rfl, rfl, .given 20 rfl⟩
  obtain ⟨hinstance, hpair, -⟩ := omitted_mask_is_prefix hx hx
  exact ⟨_, hx, (hinstance 3 v _ hv (holds_instanceId 3 16 _)).1,
    (hpair none (some 20) w _ hw (holds_sourceDest _ _ 16 20)).1⟩

end Prefixes

end EidMap.Address
