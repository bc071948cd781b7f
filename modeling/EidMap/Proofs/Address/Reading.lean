import Mathlib.Data.List.Basic
import EidMap.Address.Wire
import EidMap.Proofs.Text.Cut

/-!
# What an address is read from

One statement for each way in which a JSON value becomes an address. A payload is read by its name,
an object by the payload that its type names, and what cannot be read is the value itself.
-/

namespace EidMap.Address

open Json (Decoded)

inductive FromPayload (payload : Json) : String → Address → Prop
  | list {members : List Json} (h : Payload.Members.read payload = .ok members) :
      FromPayload payload "afi-list" (.list (members.map ofWire))
  | instanceId {iid : UInt32} {mask : UInt8} {v : Json}
      (h : Payload.InstanceId.read payload = .ok ⟨iid, some mask, v⟩) :
      FromPayload payload "instance-id" (.instanceId iid mask (ofWire v))
  | unmasked {iid : UInt32} {v : Json} (h : Payload.InstanceId.read payload = .ok ⟨iid, none, v⟩) :
      FromPayload payload "instance-id"
        (.instanceId iid (ofWire v).splitPrefix.2 (ofWire v).splitPrefix.1)
  | applicationData {v : Json} {flow : Flow}
      (h : Payload.ApplicationData.read payload = .ok ⟨v, flow⟩) :
      FromPayload payload "application-data" (.applicationData (ofWire v) flow)
  | locatorPath {hops : List (Hop Json)} (h : Payload.Path.read payload = .ok hops) :
      FromPayload payload "explicit-locator-path"
        (.locatorPath (hops.map fun x => ⟨x.id, ofWire x.address, x.lrsBits⟩))
  | sourceDest {source dest : Json} {m n : Option UInt8}
      (h : Payload.SourceDest.read payload = .ok ⟨source, dest, m, n⟩) :
      FromPayload payload "source-dest-key"
        (.sourceDest (ofWire source).splitPrefix.1 (m.getD (ofWire source).splitPrefix.2)
          (ofWire dest).splitPrefix.1 (n.getD (ofWire dest).splitPrefix.2))
  | keyValue {key value : Json} (h : Payload.KeyValue.read payload = .ok ⟨key, value⟩) :
      FromPayload payload "key-value-address" (.keyValue (ofWire key) (ofWire value))
  | plain {name : String} {a : Address} (h : ofPlainPayload name payload = .ok a) :
      FromPayload payload name a

theorem ofPayload_eq_ok {name : String} {payload : Json} {a : Address}
    (h : FromPayload payload name a) : ofPayload name payload = .ok a := by
  cases h with
  | list h | instanceId h | unmasked h | applicationData h | locatorPath h | sourceDest h
  | keyValue h =>
    rw [ofPayload]
    split
    · simp_all
    · simp_all
  | plain h =>
    unfold ofPayload
    split
    case h_7 => exact h
    -- the names of the nested formats are none of the plain ones
    all_goals simp [ofPlainPayload] at h

theorem fromPayload {name : String} {payload : Json} {a : Address}
    (h : ofPayload name payload = .ok a) : FromPayload payload name a := by
  unfold ofPayload at h
  split at h
  · split at h
    · cases h
    · rename_i members hm
      cases h
      simpa using FromPayload.list hm
  · split at h
    · cases h
    · rename_i x hx
      obtain ⟨iid, mask, v⟩ := x
      cases mask with
      | none =>
        cases h
        exact .unmasked hx
      | some mask =>
        cases h
        exact .instanceId hx
  · split at h
    · cases h
    · rename_i x hx
      cases h
      exact .applicationData hx
  · split at h
    · cases h
    · rename_i hops hx
      cases h
      simpa using FromPayload.locatorPath hx
  · split at h
    · cases h
    · rename_i x hx
      cases h
      exact .sourceDest hx
  · split at h
    · cases h
    · rename_i x hx
      cases h
      exact .keyValue hx
  · exact .plain h

inductive FromWire : Json → Address → Prop
  | string (s : String) : FromWire (.string s) (ofSimple s.toList)
  | number {n : Json.Number} {k : UInt32} (h : ofAsNumber? (.number n) = some k) :
      FromWire (.number n) (.asNumber k)
  | noAddress {fs : List (String × Json)} (hn : payloadName? fs = some "no-address") :
      FromWire (.object fs) .noAddress
  | object {fs : List (String × Json)} {name : String} {payload : Json} {a : Address}
      (hn : payloadName? fs = some name) (h0 : name ≠ "no-address")
      (hl : Json.lookup name fs = some payload) (h : FromPayload payload name a) :
      FromWire (.object fs) a
  | unrenderable {v : Json} (tag : String) (reason : Unreadable) :
      FromWire v (.unrenderable tag reason v)

theorem ofWire_object {fs : List (String × Json)} {name : String} {payload : Json} {a : Address}
    (hn : payloadName? fs = some name) (h0 : name ≠ "no-address")
    (hl : Json.lookup name fs = some payload) (h : FromPayload payload name a) :
    ofWire (.object fs) = a := by
  rw [ofWire, hn]
  simp only [if_neg h0]
  split
  · simp_all
  · rename_i p hp
    rw [hl] at hp
    cases hp
    rw [ofPayload_eq_ok h]

theorem ofWire_object_noAddress {fs : List (String × Json)}
    (hn : payloadName? fs = some "no-address") : ofWire (.object fs) = .noAddress := by
  rw [ofWire, hn]
  simp only [if_true]

theorem fromWire (v : Json) : FromWire v (ofWire v) := by
  unfold ofWire
  split
  · exact .string _
  · split
    · rename_i h
      exact .number h
    · exact .unrenderable _ _
  · split
    · exact .unrenderable _ _
    · rename_i name hn
      split
      · rename_i h0
        exact .noAddress (h0 ▸ hn)
      · rename_i h0
        split
        · exact .unrenderable _ _
        · rename_i payload hl
          split
          · rename_i a ha
            exact .object hn h0 hl (fromPayload ha)
          · exact .unrenderable _ _
  · exact .unrenderable _ _

theorem isSuffixOf?_append (front back : List Char) :
    back.isSuffixOf? (front ++ back) = some front :=
  List.isSuffixOf?_eq_some_iff_append_eq.2 rfl

theorem normalizeType_afi (front : List Char) {name : List Char} (h : ':' ∉ name) :
    normalizeType (front ++ ':' :: (name ++ "-afi".toList)) = name := by
  have hc : ':' ∉ name ++ "-afi".toList := by simp [h]
  simp only [normalizeType, Text.cutLast_append front hc, isSuffixOf?_append]

theorem normalizeType_lcaf (front : List Char) {name : List Char} (h : ':' ∉ name) :
    normalizeType (front ++ ':' :: (name ++ "-lcaf".toList)) = name := by
  have hc : ':' ∉ name ++ "-lcaf".toList := by simp [h]
  have hafi : "-afi".toList.isSuffixOf? (name ++ "-lcaf".toList) = none := by
    rw [Option.eq_none_iff_forall_ne_some]
    intro stem hs
    have hlast := congrArg List.getLast? (List.isSuffixOf?_eq_some_iff_append_eq.1 hs)
    simp at hlast
  simp only [normalizeType, Text.cutLast_append front hc, hafi, isSuffixOf?_append,
    Option.getD_some]

inductive Ending : String → Prop
  | afi : Ending "-afi"
  | lcaf : Ending "-lcaf"

theorem payloadName?_tagged {name ending : String} (he : Ending ending)
    (h : ':' ∉ name.toList) (fs : List (String × Json)) :
    payloadName? (("address-type",
      .string ("ietf-lisp-address-types:" ++ (name ++ ending))) :: fs) = some name := by
  have hm : ("ietf-lisp-address-types:" ++ (name ++ ending)).toList =
      "ietf-lisp-address-types".toList ++ ':' :: (name.toList ++ ending.toList) := by
    simp
  rw [payloadName?, Json.lookup, if_pos rfl]
  simp only [hm]
  cases he with
  | afi => rw [normalizeType_afi _ h, String.ofList_toList]
  | lcaf => rw [normalizeType_lcaf _ h, String.ofList_toList]

structure Names (name : String) : Prop where
  colon : ':' ∉ name.toList
  ne_noAddress : name ≠ "no-address"
  ne_type : "address-type" ≠ name

theorem Names.lookup {name : String} (h : Names name) (type payload : Json) :
    Json.lookup name [("address-type", type), (name, payload)] = some payload := by
  rw [Json.lookup, if_neg h.ne_type, Json.lookup, if_pos rfl]

theorem ofWire_tagged {name ending : String} (he : Ending ending) (hn : Names name)
    {payload : Json} {a : Address} (hp : FromPayload payload name a) :
    ofWire (tagged (name ++ ending) name payload) = a :=
  ofWire_object (payloadName?_tagged he hn.colon _) hn.ne_noAddress (hn.lookup _ _) hp

end EidMap.Address
