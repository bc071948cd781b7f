import EidMap.Address.Wire
import EidMap.Proofs.Json.Record

/-!
# Payloads that were written are read

Each nested format reads from the object that the writer puts under its name what the writer put
there. The addresses inside are still JSON at this level.
-/

namespace EidMap.Address.Payload

open Json

theorem Members.read_object (vs : List Json) :
    Members.read (.object [("address-list", .array vs)]) = .ok vs := by
  have hread : Members.field.read (.array vs) = .ok vs := list_array (each_value vs)
  have hp : Passes [Members.field.guard] [] [("address-list", .array vs)] :=
    .cons rfl rfl (check_guard hread) (.nil _)
  rw [Members.read, record_object hp, get_named rfl]
  exact hread

theorem InstanceId.read_object (iid : UInt32) (mask : UInt8) (v : Json) :
    InstanceId.read (.object [("address", v), ("iid", .ofNat iid.toNat),
      ("mask-length", .ofNat mask.toNat)]) = .ok ⟨iid, some mask, v⟩ := by
  have ha : addressField.read v = .ok v := value_eq_ok.2 rfl
  have hi : iidField.read (.ofNat iid.toNat) = .ok iid := uint32_ofNat iid
  have hm : maskField.read (.ofNat mask.toNat) = .ok (some mask) := option_uint8_ofNat mask
  have hp : Passes [iidField.guard, maskField.guard, addressField.guard] []
      [("address", v), ("iid", .ofNat iid.toNat), ("mask-length", .ofNat mask.toNat)] :=
    .cons rfl rfl (check_guard ha) <| .cons rfl rfl (check_guard hi) <|
      .cons rfl rfl (check_guard hm) <| .nil _
  rw [InstanceId.read, record_object hp, get_named rfl, get_named rfl, get_named rfl, ha, hi, hm]
  rfl

theorem ApplicationData.read_object (v : Json) (f : Flow) :
    ApplicationData.read (.object [("address", v), ("ip-tos", .ofNat f.tos.toNat),
      ("local-port-high", .ofNat f.localHigh.toNat), ("local-port-low", .ofNat f.localLow.toNat),
      ("protocol", .ofNat f.protocol.toNat), ("remote-port-high", .ofNat f.remoteHigh.toNat),
      ("remote-port-low", .ofNat f.remoteLow.toNat)]) = .ok ⟨v, f⟩ := by
  have ha : addressField.read v = .ok v := value_eq_ok.2 rfl
  have ht : tosField.read (.ofNat f.tos.toNat) = .ok f.tos := uint32_ofNat _
  have hp : protocolField.read (.ofNat f.protocol.toNat) = .ok f.protocol := uint8_ofNat _
  have hll : localLowField.read (.ofNat f.localLow.toNat) = .ok f.localLow := uint16_ofNat _
  have hlh : localHighField.read (.ofNat f.localHigh.toNat) = .ok f.localHigh := uint16_ofNat _
  have hrl : remoteLowField.read (.ofNat f.remoteLow.toNat) = .ok f.remoteLow := uint16_ofNat _
  have hrh : remoteHighField.read (.ofNat f.remoteHigh.toNat) = .ok f.remoteHigh :=
    uint16_ofNat _
  have hpass : Passes guards [] [("address", v), ("ip-tos", .ofNat f.tos.toNat),
      ("local-port-high", .ofNat f.localHigh.toNat), ("local-port-low", .ofNat f.localLow.toNat),
      ("protocol", .ofNat f.protocol.toNat), ("remote-port-high", .ofNat f.remoteHigh.toNat),
      ("remote-port-low", .ofNat f.remoteLow.toNat)] :=
    .cons rfl rfl (check_guard ha) <| .cons rfl rfl (check_guard ht) <|
      .cons rfl rfl (check_guard hlh) <| .cons rfl rfl (check_guard hll) <|
      .cons rfl rfl (check_guard hp) <| .cons rfl rfl (check_guard hrh) <|
      .cons rfl rfl (check_guard hrl) <| .nil _
  rw [ApplicationData.read, record_object hpass, get_named rfl, get_named rfl, get_named rfl,
    get_named rfl, get_named rfl, get_named rfl, get_named rfl, ha, ht, hp, hll, hlh, hrl, hrh]
  rfl

namespace Path

theorem readHop_object (id : Option String) (v : Json) (bits : Option String) :
    readHop (.object (("address", v) :: optionalField "hop-id" .string id ++
      optionalField "lrs-bits" .string bits)) = .ok ⟨id, v, bits⟩ := by
  have ha : addressField.read v = .ok v := value_eq_ok.2 rfl
  have hcheck : ∀ name s, (optional name text).guard.check (Json.string s) = .ok () :=
    fun name s => check_guard (option_text_string s)
  have hp : Passes [idField.guard, addressField.guard, lrsBitsField.guard] []
      (("address", v) :: (optionalField "hop-id" .string id ++
        (optionalField "lrs-bits" .string bits ++ []))) :=
    .cons rfl rfl (check_guard ha) <|
      .optionalField id rfl rfl (hcheck _)
        (.optionalField bits rfl rfl (hcheck _) (.nil _) (.nil _))
        (.optionalField bits rfl rfl (hcheck _) (.nil _) (.nil _))
  have hid : Parts.find? "hop-id" [] (("address", v) :: (optionalField "hop-id" Json.string id ++
      (optionalField "lrs-bits" Json.string bits ++ []))) = id.map Json.string := by
    cases id <;> cases bits <;> rfl
  have hbits : Parts.find? "lrs-bits" [] (("address", v) ::
      (optionalField "hop-id" Json.string id ++
        (optionalField "lrs-bits" Json.string bits ++ []))) = bits.map Json.string := by
    cases id <;> cases bits <;> rfl
  rw [readHop, List.cons_append, ← List.append_nil (optionalField "lrs-bits" _ _),
    record_object hp, idField, lrsBitsField, get_optional option_text_string hid, get_named rfl, ha,
    get_optional option_text_string hbits]
  rfl

theorem read_object {vs : List Json} {hops : List (Hop Json)}
    (h : each readHop vs = .ok hops) : Path.read (.object [("hop", .array vs)]) = .ok hops := by
  have hread : field.read (.array vs) = .ok hops := list_array h
  have hp : Passes [field.guard] [] [("hop", .array vs)] :=
    .cons rfl rfl (check_guard hread) (.nil _)
  rw [Path.read, record_object hp, get_named rfl]
  exact hread

end Path

theorem SourceDest.read_object (source dest : Json) (m n : UInt8) :
    SourceDest.read (.object [("dest", dest), ("dest-mask-length", .ofNat n.toNat),
      ("source", source), ("source-mask-length", .ofNat m.toNat)]) =
      .ok ⟨source, dest, some m, some n⟩ := by
  have hs : sourceField.read source = .ok source := value_eq_ok.2 rfl
  have hd : destField.read dest = .ok dest := value_eq_ok.2 rfl
  have hm : sourceMaskField.read (.ofNat m.toNat) = .ok (some m) := option_uint8_ofNat m
  have hn : destMaskField.read (.ofNat n.toNat) = .ok (some n) := option_uint8_ofNat n
  have hp : Passes
      [sourceField.guard, destField.guard, sourceMaskField.guard, destMaskField.guard] []
      [("dest", dest), ("dest-mask-length", .ofNat n.toNat), ("source", source),
        ("source-mask-length", .ofNat m.toNat)] :=
    .cons rfl rfl (check_guard hd) <| .cons rfl rfl (check_guard hn) <|
      .cons rfl rfl (check_guard hs) <| .cons rfl rfl (check_guard hm) <| .nil _
  rw [SourceDest.read, record_object hp, get_named rfl, get_named rfl, get_named rfl,
    get_named rfl, hs, hd, hm, hn]
  rfl

theorem KeyValue.read_object (key value : Json) :
    KeyValue.read (.object [("key", key), ("value", value)]) = .ok ⟨key, value⟩ := by
  have hk : keyField.read key = .ok key := value_eq_ok.2 rfl
  have hv : valueField.read value = .ok value := value_eq_ok.2 rfl
  have hp : Passes [keyField.guard, valueField.guard] [] [("key", key), ("value", value)] :=
    .cons rfl rfl (check_guard hk) <| .cons rfl rfl (check_guard hv) <| .nil _
  rw [KeyValue.read, record_object hp, get_named rfl, get_named rfl, hk, hv]
  rfl

end EidMap.Address.Payload
