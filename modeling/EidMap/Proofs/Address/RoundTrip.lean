import EidMap.Proofs.Address.Payload
import EidMap.Proofs.Address.Reading
import EidMap.Proofs.Address.Simple

/-!
# Addresses written as JSON and read again

An address survives being written and read exactly if it is well formed at every level: mask
lengths are in range, the ends of a source-destination pair carry no mask length of their own, and
what could not be read is what its JSON value reads as. Everything that is read is well formed.
-/

namespace EidMap.Address

open Json (Decoded)

/-- Not an IP address with a mask length of its own. -/
def Bare : Address → Prop
  | .ipv4 _ length => length = none
  | .ipv6 _ length => length = none
  | _ => True

inductive WellFormed : Address → Prop
  | noAddress : WellFormed .noAddress
  | ipv4 (v : Ip.V4) {length : Option UInt8} (range : ∀ n ∈ length, n ≤ 32) :
      WellFormed (.ipv4 v length)
  | ipv6 (v : Ip.V6) {length : Option UInt8} (range : ∀ n ∈ length, n ≤ 128) :
      WellFormed (.ipv6 v length)
  | mac (text : String) : WellFormed (.mac text)
  | distinguishedName (name : String) : WellFormed (.distinguishedName name)
  | asNumber (n : UInt32) : WellFormed (.asNumber n)
  | list {members : List Address} (h : ∀ a ∈ members, WellFormed a) : WellFormed (.list members)
  | instanceId (iid : UInt32) (mask : UInt8) {a : Address} (h : WellFormed a) :
      WellFormed (.instanceId iid mask a)
  | applicationData {a : Address} (flow : Flow) (h : WellFormed a) :
      WellFormed (.applicationData a flow)
  | locatorPath {hops : List (Hop Address)} (h : ∀ hop ∈ hops, WellFormed hop.address) :
      WellFormed (.locatorPath hops)
  | sourceDest {source dest : Address} (m n : UInt8) (hs : WellFormed source)
      (bareSource : source.Bare) (hd : WellFormed dest) (bareDest : dest.Bare) :
      WellFormed (.sourceDest source m dest n)
  | keyValue {key value : Address} (hk : WellFormed key) (hv : WellFormed value) :
      WellFormed (.keyValue key value)
  | unrenderable {tag : String} {reason : Unreadable} {raw : Json}
      (h : ofWire raw = .unrenderable tag reason raw) : WellFormed (.unrenderable tag reason raw)

theorem bare_splitPrefix (a : Address) : a.splitPrefix.1.Bare := by
  cases a with
  | ipv4 v length => rfl
  | ipv6 v length => rfl
  | _ => trivial

theorem splitPrefix_of_bare {a : Address} (h : a.Bare) : a.splitPrefix.1 = a := by
  cases a with
  | ipv4 v length =>
    have hl : length = none := h
    rw [hl]
    rfl
  | ipv6 v length =>
    have hl : length = none := h
    rw [hl]
    rfl
  | _ => rfl

theorem WellFormed.splitPrefix {a : Address} (h : a.WellFormed) : a.splitPrefix.1.WellFormed := by
  cases h with
  | ipv4 v range => exact .ipv4 v (by simp)
  | ipv6 v range => exact .ipv6 v (by simp)
  | _ => constructor <;> assumption

def hopToWire (hop : Hop Address) : Json :=
  .object (("address", toWire hop.address) :: Json.optionalField "hop-id" .string hop.id ++
    Json.optionalField "lrs-bits" .string hop.lrsBits)

theorem toWireMembers_eq (members : List Address) : toWireMembers members = members.map toWire := by
  induction members with
  | nil => rfl
  | cons a members ih =>
    change toWire a :: toWireMembers members = toWire a :: members.map toWire
    rw [ih]

theorem toWireHops_eq (hops : List (Hop Address)) : toWireHops hops = hops.map hopToWire := by
  induction hops with
  | nil => rfl
  | cons hop hops ih =>
    change hopToWire hop :: toWireHops hops = hopToWire hop :: hops.map hopToWire
    rw [ih]

theorem toWire_list (members : List Address) :
    toWire (.list members) = tagged "afi-list-lcaf" "afi-list"
      (.object [("address-list", .array (members.map toWire))]) := by
  rw [← toWireMembers_eq]
  rfl

theorem toWire_locatorPath (hops : List (Hop Address)) :
    toWire (.locatorPath hops) = tagged "explicit-locator-path-lcaf" "explicit-locator-path"
      (.object [("hop", .array (hops.map hopToWire))]) := by
  rw [← toWireHops_eq]
  rfl

theorem ofAsNumber?_ofNat (n : UInt32) : ofAsNumber? (.ofNat n.toNat) = some n := by
  have hn : n.toNat < 2 ^ 32 := n.toNat_lt
  have hz : (n.toNat : Int) < 4294967296 := by omega
  simp [ofAsNumber?, Json.ofNat, hz]

theorem ofWire_ipv4 (v : Ip.V4) {length : Option UInt8} (h : ∀ n ∈ length, n ≤ 32) :
    ofWire (toWire (.ipv4 v length)) = .ipv4 v length := by
  have hs := ofSimple_ipv4 v h
  cases length with
  | none =>
    simp only [lengthened] at hs
    have hp : FromPayload (.string (String.ofList v.text)) "ipv4" (.ipv4 v none) := .plain (by
      simp [ofPlainPayload, textPayload, bind, Except.bind, hs])
    exact ofWire_tagged .afi (by constructor <;> simp) hp
  | some n =>
    simp only [lengthened] at hs
    have hp : FromPayload (lengthText v.text n) "ipv4-prefix" (.ipv4 v (some n)) := .plain (by
      simp [ofPlainPayload, textPayload, lengthText, bind, Except.bind, hs])
    exact ofWire_tagged .afi (by constructor <;> simp) hp

theorem ofWire_ipv6 (v : Ip.V6) {length : Option UInt8} (h : ∀ n ∈ length, n ≤ 128) :
    ofWire (toWire (.ipv6 v length)) = .ipv6 v length := by
  have hs := ofSimple_ipv6 v h
  cases length with
  | none =>
    simp only [lengthened] at hs
    have hp : FromPayload (.string (String.ofList v.text)) "ipv6" (.ipv6 v none) := .plain (by
      simp [ofPlainPayload, textPayload, bind, Except.bind, hs])
    exact ofWire_tagged .afi (by constructor <;> simp) hp
  | some n =>
    simp only [lengthened] at hs
    have hp : FromPayload (lengthText v.text n) "ipv6-prefix" (.ipv6 v (some n)) := .plain (by
      simp [ofPlainPayload, textPayload, lengthText, bind, Except.bind, hs])
    exact ofWire_tagged .afi (by constructor <;> simp) hp

theorem ofWire_noAddress : ofWire (toWire .noAddress) = .noAddress :=
  ofWire_object_noAddress
    (@payloadName?_tagged "no-address" "-afi" .afi (by simp) [("no-address", .bool true)])

theorem ofWire_mac (text : String) : ofWire (toWire (.mac text)) = .mac text := by
  have hp : FromPayload (.string text) "mac" (.mac text) := .plain rfl
  exact ofWire_tagged .afi (by constructor <;> simp) hp

theorem ofWire_distinguishedName (name : String) :
    ofWire (toWire (.distinguishedName name)) = .distinguishedName name := by
  have hp : FromPayload (.string name) "distinguished-name" (.distinguishedName name) := .plain rfl
  exact ofWire_tagged .afi (by constructor <;> simp) hp

theorem ofWire_asNumber (n : UInt32) : ofWire (toWire (.asNumber n)) = .asNumber n := by
  have hp : FromPayload (.ofNat n.toNat) "as-number" (.asNumber n) := .plain (by
    simp [ofPlainPayload, ofAsNumber?_ofNat])
  exact ofWire_tagged .afi (by constructor <;> simp) hp

theorem ofWire_list {members : List Address} (h : ∀ a ∈ members, ofWire (toWire a) = a) :
    ofWire (toWire (.list members)) = .list members := by
  have hp := FromPayload.list (Payload.Members.read_object (members.map toWire))
  have hm : (members.map toWire).map ofWire = members := by
    rw [List.map_map]
    exact (List.map_congr_left h).trans (List.map_id members)
  rw [hm] at hp
  rw [toWire_list]
  exact ofWire_tagged .lcaf (by constructor <;> simp) hp

theorem ofWire_instanceId (iid : UInt32) (mask : UInt8) {a : Address} (h : ofWire (toWire a) = a) :
    ofWire (toWire (.instanceId iid mask a)) = .instanceId iid mask a := by
  have hp := FromPayload.instanceId (Payload.InstanceId.read_object iid mask (toWire a))
  rw [h] at hp
  exact ofWire_tagged .lcaf (by constructor <;> simp) hp

theorem ofWire_applicationData {a : Address} (flow : Flow) (h : ofWire (toWire a) = a) :
    ofWire (toWire (.applicationData a flow)) = .applicationData a flow := by
  have hp := FromPayload.applicationData (Payload.ApplicationData.read_object (toWire a) flow)
  rw [h] at hp
  exact ofWire_tagged .lcaf (by constructor <;> simp) hp

theorem each_readHop (hops : List (Hop Address)) :
    Json.each Payload.Path.readHop (hops.map hopToWire) =
      .ok (hops.map fun hop => ⟨hop.id, toWire hop.address, hop.lrsBits⟩) :=
  Json.each_map fun hop _ => Payload.Path.readHop_object hop.id (toWire hop.address) hop.lrsBits

theorem ofWire_locatorPath {hops : List (Hop Address)}
    (h : ∀ hop ∈ hops, ofWire (toWire hop.address) = hop.address) :
    ofWire (toWire (.locatorPath hops)) = .locatorPath hops := by
  have hp := FromPayload.locatorPath (Payload.Path.read_object (each_readHop hops))
  have hm : (hops.map fun hop => (⟨hop.id, toWire hop.address, hop.lrsBits⟩ : Hop Json)).map
      (fun hop => ⟨hop.id, ofWire hop.address, hop.lrsBits⟩) = hops := by
    rw [List.map_map]
    refine (List.map_congr_left fun hop hmem => ?_).trans (List.map_id hops)
    simp only [Function.comp_apply, h hop hmem, id]
  rw [hm] at hp
  rw [toWire_locatorPath]
  exact ofWire_tagged .lcaf (by constructor <;> simp) hp

theorem ofWire_sourceDest {source dest : Address} (m n : UInt8)
    (hs : ofWire (toWire source) = source) (bareSource : source.Bare)
    (hd : ofWire (toWire dest) = dest) (bareDest : dest.Bare) :
    ofWire (toWire (.sourceDest source m dest n)) = .sourceDest source m dest n := by
  have hp := FromPayload.sourceDest
    (Payload.SourceDest.read_object (toWire source) (toWire dest) m n)
  rw [hs, hd, splitPrefix_of_bare bareSource, splitPrefix_of_bare bareDest] at hp
  exact ofWire_tagged .lcaf (by constructor <;> simp) hp

theorem ofWire_keyValue {key value : Address} (hk : ofWire (toWire key) = key)
    (hv : ofWire (toWire value) = value) :
    ofWire (toWire (.keyValue key value)) = .keyValue key value := by
  have hp := FromPayload.keyValue (Payload.KeyValue.read_object (toWire key) (toWire value))
  rw [hk, hv] at hp
  exact ofWire_tagged .lcaf (by constructor <;> simp) hp

theorem WellFormed.ofWire_toWire {a : Address} (h : a.WellFormed) : ofWire (toWire a) = a := by
  induction h with
  | noAddress => exact ofWire_noAddress
  | ipv4 v range => exact ofWire_ipv4 v range
  | ipv6 v range => exact ofWire_ipv6 v range
  | mac text => exact ofWire_mac text
  | distinguishedName name => exact ofWire_distinguishedName name
  | asNumber n => exact ofWire_asNumber n
  | list _ ih => exact ofWire_list ih
  | instanceId iid mask _ ih => exact ofWire_instanceId iid mask ih
  | applicationData flow _ ih => exact ofWire_applicationData flow ih
  | locatorPath _ ih => exact ofWire_locatorPath ih
  | sourceDest m n _ bareSource _ bareDest ihs ihd =>
    exact ofWire_sourceDest m n ihs bareSource ihd bareDest
  | keyValue _ _ ihk ihv => exact ofWire_keyValue ihk ihv
  | unrenderable h =>
    exact h

theorem IsSimple.wellFormed {cs : List Char} {a : Address} (h : IsSimple cs a) : a.WellFormed := by
  cases h with
  | ipv4 v length range => exact .ipv4 v range
  | ipv6 v length range => exact .ipv6 v range
  | mac h => exact .mac _
  | name => exact .distinguishedName _

theorem scalar_of_ofPlainPayload {name : String} {payload : Json} {a : Address}
    (h : ofPlainPayload name payload = .ok a) : a.isScalar = true ∧ a.WellFormed := by
  have hsimple : ∀ cs : List Char, (ofSimple cs).isScalar = true ∧ (ofSimple cs).WellFormed :=
    fun cs => ⟨(isSimple_ofSimple cs).isScalar, (isSimple_ofSimple cs).wellFormed⟩
  unfold ofPlainPayload at h
  split at h
  case h_1 | h_2 | h_3 | h_4 =>
    obtain ⟨text, -, h⟩ := Json.bind_eq_ok.1 h
    have ht := hsimple text.toList
    split at h
    · rename_i hs
      cases h
      exact hs ▸ ht
    · cases h
  case h_5 =>
    obtain ⟨text, -, rfl⟩ := Json.map_eq_ok.1 h
    exact ⟨rfl, .mac text⟩
  case h_6 =>
    obtain ⟨text, -, rfl⟩ := Json.map_eq_ok.1 h
    exact ⟨rfl, .distinguishedName text⟩
  case h_7 =>
    split at h
    · cases h
      exact ⟨rfl, .asNumber _⟩
    · cases h
  case h_8 => cases h

theorem FromPayload.wellFormed {payload : Json} {name : String} {a : Address}
    (h : FromPayload payload name a)
    (ih : ∀ v : Json, sizeOf v < sizeOf payload → (ofWire v).WellFormed) : a.WellFormed := by
  cases h with
  | list h =>
    refine .list fun a ha => ?_
    obtain ⟨v, hv, rfl⟩ := List.mem_map.1 ha
    exact ih v (Payload.Members.member_lt h hv)
  | instanceId h =>
    have hv := Payload.InstanceId.address_mem h
    exact .instanceId _ _ (ih _ (Json.sizeOf_lt_of_mem_parts hv))
  | unmasked h =>
    have hv := Payload.InstanceId.address_mem h
    exact .instanceId _ _ (ih _ (Json.sizeOf_lt_of_mem_parts hv)).splitPrefix
  | applicationData h =>
    have hv := Payload.ApplicationData.address_mem h
    exact .applicationData _ (ih _ (Json.sizeOf_lt_of_mem_parts hv))
  | locatorPath h =>
    refine .locatorPath fun hop hmem => ?_
    obtain ⟨x, hx, rfl⟩ := List.mem_map.1 hmem
    exact ih x.address (Payload.Path.address_lt h hx)
  | sourceDest h =>
    obtain ⟨hs, hd⟩ := Payload.SourceDest.addresses_mem h
    exact .sourceDest _ _ (ih _ (Json.sizeOf_lt_of_mem_parts hs)).splitPrefix (bare_splitPrefix _)
      (ih _ (Json.sizeOf_lt_of_mem_parts hd)).splitPrefix (bare_splitPrefix _)
  | keyValue h =>
    obtain ⟨hk, hv⟩ := Payload.KeyValue.addresses_mem h
    exact .keyValue (ih _ (Json.sizeOf_lt_of_mem_parts hk)) (ih _ (Json.sizeOf_lt_of_mem_parts hv))
  | plain h => exact (scalar_of_ofPlainPayload h).2

theorem FromWire.wellFormed {v : Json} {a : Address} (h : FromWire v a) (ha : ofWire v = a)
    (ih : ∀ w : Json, sizeOf w < sizeOf v → (ofWire w).WellFormed) : a.WellFormed := by
  cases h with
  | string s => exact (isSimple_ofSimple _).wellFormed
  | number h => exact .asNumber _
  | noAddress hn => exact .noAddress
  | object hn h0 hl h =>
    have hp := Json.sizeOf_lookup_lt hl
    exact h.wellFormed fun w hw => ih w (Nat.lt_trans hw hp)
  | unrenderable tag reason => exact .unrenderable ha

theorem wellFormed_ofWire (v : Json) : (ofWire v).WellFormed :=
  (fromWire v).wellFormed rfl fun w _ => wellFormed_ofWire w
termination_by sizeOf v

/-- What is written reads as the address that was written exactly if that is well formed. -/
theorem ofWire_toWire_eq_iff (a : Address) : ofWire (toWire a) = a ↔ a.WellFormed := by
  constructor
  · intro h
    rw [← h]
    exact wellFormed_ofWire (toWire a)
  · intro h
    exact h.ofWire_toWire

end EidMap.Address
