import EidMap.Proofs.Address.RoundTrip
import EidMap.Proofs.Json.Order

/-!
# Addresses are written in order

The fields of an address ascend wherever the writer names them. What could not be read is written as
it came, so an address that was read from a value in order is written in order too.
-/

namespace EidMap.Address

theorem ordered_tagged {type name : String} {payload : Json} (after : "address-type" < name)
    (h : payload.ordered = payload) :
    (tagged type name payload).ordered = tagged type name payload := by
  apply Json.ordered_object_eq ["address-type", name] rfl (List.pairwise_pair.2 after)
  simpa using h

theorem ordered_tagged_object {type name : String} {fs : List (String × Json)}
    (after : "address-type" < name) (names : List String) (named : fs.map Prod.fst = names)
    (ascending : names.Pairwise (· < ·)) (h : ∀ f ∈ fs, f.2.ordered = f.2) :
    (tagged type name (.object fs)).ordered = tagged type name (.object fs) :=
  ordered_tagged after (Json.ordered_object_eq names named ascending h)

def Ordered (a : Address) : Prop := a.toWire.ordered = a.toWire

theorem Ordered.eq {a : Address} (h : a.Ordered) : a.toWire.ordered = a.toWire := h

theorem IsSimple.ordered {cs : List Char} {a : Address} (h : IsSimple cs a) : a.Ordered := by
  cases h with
  | ipv4 v length => cases length <;> exact ordered_tagged (by decide) rfl
  | ipv6 v length => cases length <;> exact ordered_tagged (by decide) rfl
  | mac => exact ordered_tagged (by decide) rfl
  | name => exact ordered_tagged (by decide) rfl

theorem Ordered.splitPrefix {a : Address} (h : a.Ordered) : a.splitPrefix.1.Ordered := by
  cases a with
  | ipv4 v length => exact ordered_tagged (by decide) rfl
  | ipv6 v length => exact ordered_tagged (by decide) rfl
  | _ => exact h

theorem ordered_list {members : List Address} (h : ∀ a ∈ members, a.Ordered) :
    (list members).Ordered := by
  have hitems : (Json.array (members.map toWire)).ordered = .array (members.map toWire) :=
    Json.ordered_array_eq (List.forall_mem_map.2 h)
  rw [Ordered, toWire_list]
  apply ordered_tagged_object (by decide) ["address-list"] rfl (by decide)
  simpa using hitems

theorem ordered_instanceId (iid : UInt32) (mask : UInt8) {a : Address} (h : a.Ordered) :
    (instanceId iid mask a).Ordered := by
  rw [Ordered, toWire]
  apply ordered_tagged_object (by decide) ["address", "iid", "mask-length"] rfl (by decide)
  simpa using h.eq

theorem ordered_applicationData (flow : Flow) {a : Address} (h : a.Ordered) :
    (applicationData a flow).Ordered := by
  rw [Ordered, toWire]
  apply ordered_tagged_object (by decide) ["address", "ip-tos", "local-port-high",
    "local-port-low", "protocol", "remote-port-high", "remote-port-low"] rfl (by decide)
  simpa using h.eq

theorem ordered_hopToWire {hop : Hop Address} (h : hop.address.Ordered) :
    (hopToWire hop).ordered = hopToWire hop := by
  obtain ⟨id, a, bits⟩ := hop
  have haddress : a.toWire.ordered = a.toWire := h.eq
  cases id <;> cases bits
  · exact Json.ordered_object_eq ["address"] rfl (by decide) (by simpa [Json.optionalField])
  · exact Json.ordered_object_eq ["address", "lrs-bits"] rfl (by decide)
      (by simpa [Json.optionalField])
  · exact Json.ordered_object_eq ["address", "hop-id"] rfl (by decide)
      (by simpa [Json.optionalField])
  · exact Json.ordered_object_eq ["address", "hop-id", "lrs-bits"] rfl (by decide)
      (by simpa [Json.optionalField])

theorem ordered_locatorPath {hops : List (Hop Address)} (h : ∀ hop ∈ hops, hop.address.Ordered) :
    (locatorPath hops).Ordered := by
  have hitems : (Json.array (hops.map hopToWire)).ordered = .array (hops.map hopToWire) :=
    Json.ordered_array_eq (List.forall_mem_map.2 fun hop hmem => ordered_hopToWire (h hop hmem))
  rw [Ordered, toWire_locatorPath]
  apply ordered_tagged_object (by decide) ["hop"] rfl (by decide)
  simpa using hitems

theorem ordered_sourceDest {source dest : Address} (m n : UInt8) (hs : source.Ordered)
    (hd : dest.Ordered) : (sourceDest source m dest n).Ordered := by
  rw [Ordered, toWire]
  apply ordered_tagged_object (by decide) ["dest", "dest-mask-length", "source",
    "source-mask-length"] rfl (by decide)
  simpa using ⟨hd.eq, hs.eq⟩

theorem ordered_keyValue {key value : Address} (hk : key.Ordered) (hv : value.Ordered) :
    (keyValue key value).Ordered := by
  rw [Ordered, toWire]
  apply ordered_tagged_object (by decide) ["key", "value"] rfl (by decide)
  simpa using ⟨hk.eq, hv.eq⟩

theorem ordered_of_ofPlainPayload {name : String} {payload : Json} {a : Address}
    (h : ofPlainPayload name payload = .ok a) : a.Ordered := by
  have hsimple : ∀ cs : List Char, (ofSimple cs).Ordered := fun cs => (isSimple_ofSimple cs).ordered
  unfold ofPlainPayload at h
  split at h
  case h_1 | h_2 | h_3 | h_4 =>
    obtain ⟨text, -, h⟩ := Json.bind_eq_ok.1 h
    have ht := hsimple text.toList
    split at h
    · rename_i hs
      cases h
      exact hs ▸ ht
    · cases h
  case h_5 | h_6 =>
    obtain ⟨text, -, rfl⟩ := Json.map_eq_ok.1 h
    exact ordered_tagged (by decide) rfl
  case h_7 =>
    split at h
    · cases h
      exact ordered_tagged (by decide) rfl
    · cases h
  case h_8 => cases h

variable {v : Json} {a : Address}

theorem FromPayload.ordered {payload : Json} {name : String} (h : FromPayload payload name a)
    (hp : payload.ordered = payload)
    (ih : ∀ w : Json, sizeOf w < sizeOf payload → w.ordered = w → (ofWire w).Ordered) :
    a.Ordered := by
  have hpart : ∀ w ∈ payload.parts, (ofWire w).Ordered := fun w hw =>
    ih w (Json.sizeOf_lt_of_mem_parts hw) (Json.ordered_of_mem_parts hp hw)
  cases h with
  | list h =>
    refine ordered_list (List.forall_mem_map.2 fun w hw => ?_)
    obtain ⟨l, hl, hwl⟩ := Payload.Members.exists_part h hw
    exact ih w (Payload.Members.member_lt h hw)
      (Json.ordered_of_mem_parts (Json.ordered_of_mem_parts hp hl) hwl)
  | instanceId h =>
    exact ordered_instanceId _ _ (hpart _ (Payload.InstanceId.address_mem h))
  | unmasked h =>
    exact ordered_instanceId _ _ (hpart _ (Payload.InstanceId.address_mem h)).splitPrefix
  | applicationData h =>
    exact ordered_applicationData _ (hpart _ (Payload.ApplicationData.address_mem h))
  | locatorPath h =>
    refine ordered_locatorPath (List.forall_mem_map.2 fun x hx => ?_)
    obtain ⟨l, hl, y, hy, hxy⟩ := Payload.Path.exists_part h hx
    exact ih x.address (Payload.Path.address_lt h hx)
      (Json.ordered_of_mem_parts (Json.ordered_of_mem_parts (Json.ordered_of_mem_parts hp hl) hy) hxy)
  | sourceDest h =>
    obtain ⟨hs, hd⟩ := Payload.SourceDest.addresses_mem h
    exact ordered_sourceDest _ _ (hpart _ hs).splitPrefix (hpart _ hd).splitPrefix
  | keyValue h =>
    obtain ⟨hk, hv⟩ := Payload.KeyValue.addresses_mem h
    exact ordered_keyValue (hpart _ hk) (hpart _ hv)
  | plain h => exact ordered_of_ofPlainPayload h

theorem FromWire.ordered (h : FromWire v a) (hv : v.ordered = v)
    (ih : ∀ w : Json, sizeOf w < sizeOf v → w.ordered = w → (ofWire w).Ordered) : a.Ordered := by
  cases h with
  | string s => exact (isSimple_ofSimple _).ordered
  | number h => exact ordered_tagged (by decide) rfl
  | noAddress hn => exact ordered_tagged (by decide) rfl
  | object hn h0 hl h =>
    have hsize := Json.sizeOf_lookup_lt hl
    have hpayload := Json.ordered_of_mem_parts hv (List.mem_map_of_mem (Json.mem_of_lookup hl))
    exact h.ordered hpayload fun w hw => ih w (Nat.lt_trans hw hsize)
  | unrenderable tag reason => exact hv

theorem ordered_ofWire (v : Json) (h : v.ordered = v) : (ofWire v).Ordered :=
  (fromWire v).ordered h fun w _ hw => ordered_ofWire w hw
termination_by sizeOf v

end EidMap.Address
