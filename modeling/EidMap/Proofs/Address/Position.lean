import EidMap.Proofs.Address.RoundTrip

/-!
# Where the parts of an address come from

A position leads from an address to an address inside it, and from a JSON value to the value that
the address there is read from. Reading and writing both respect positions, so what could not be
read is written back, in its place, as the value that was there.
-/

namespace EidMap.Json

inductive Within : Json → Json → Prop
  | refl (v : Json) : Within v v
  | part {u w v : Json} (hw : w ∈ v.parts) (h : Within u w) : Within u v

theorem Within.trans {u w v : Json} (huw : Within u w) (hwv : Within w v) : Within u v := by
  induction hwv with
  | refl => exact huw
  | part hw _ ih => exact .part hw ih

theorem within_of_mem_parts {w v : Json} (h : w ∈ v.parts) : Within w v := .part h (.refl w)

theorem within_lookup {name : String} {fs : List (String × Json)} {v : Json}
    (h : lookup name fs = some v) : Within v (.object fs) :=
  within_of_mem_parts (List.mem_map.2 ⟨_, mem_of_lookup h, rfl⟩)

end EidMap.Json

namespace EidMap.Address

open Json (Within)

inductive Step
  | member (i : Nat)
  | instanced
  | flow
  | hop (i : Nat)
  | source
  | dest
  | key
  | value

abbrev Position := List Step

def child? : Step → Address → Option Address
  | .member i, .list members => members[i]?
  | .instanced, .instanceId _ _ a => some a
  | .flow, .applicationData a _ => some a
  | .hop i, .locatorPath hops => hops[i]?.map (·.address)
  | .source, .sourceDest source _ _ _ => some source
  | .dest, .sourceDest _ _ dest _ => some dest
  | .key, .keyValue key _ => some key
  | .value, .keyValue _ value => some value
  | _, _ => none

def descend? : Position → Address → Option Address
  | [], a => some a
  | s :: p, a => (child? s a).bind (descend? p)

namespace Step

def payloadName : Step → String
  | .member _ => "afi-list"
  | .instanced => "instance-id"
  | .flow => "application-data"
  | .hop _ => "explicit-locator-path"
  | .source | .dest => "source-dest-key"
  | .key | .value => "key-value-address"

def ofPayload? (s : Step) (payload : Json) : Option Json :=
  match s with
  | .member i => (Payload.Members.read payload).toOption.bind (·[i]?)
  | .instanced => (Payload.InstanceId.read payload).toOption.map (·.address)
  | .flow => (Payload.ApplicationData.read payload).toOption.map (·.address)
  | .hop i => (Payload.Path.read payload).toOption.bind fun hops => hops[i]?.map (·.address)
  | .source => (Payload.SourceDest.read payload).toOption.map (·.source)
  | .dest => (Payload.SourceDest.read payload).toOption.map (·.dest)
  | .key => (Payload.KeyValue.read payload).toOption.map (·.key)
  | .value => (Payload.KeyValue.read payload).toOption.map (·.value)

end Step

def part? (s : Step) : Json → Option Json
  | .object fs =>
    if payloadName? fs = some s.payloadName then (Json.lookup s.payloadName fs).bind s.ofPayload?
    else none
  | _ => none

/-- The value that the address at a position is read from. -/
def source? : Position → Json → Option Json
  | [], v => some v
  | s :: p, v => (part? s v).bind (source? p)

theorem eq_ok_of_toOption {ε α : Type} {x : Except ε α} {a : α} (h : x.toOption = some a) :
    x = .ok a := by
  cases x with
  | error e => cases h
  | ok b =>
    cases h
    rfl

theorem Payload.Members.within {payload w : Json} {vs : List Json}
    (h : Payload.Members.read payload = .ok vs) (hw : w ∈ vs) : Within w payload := by
  obtain ⟨p, hp, h⟩ := Json.exists_parts_of_record h
  obtain ⟨l, hl, h⟩ := Json.Parts.exists_of_get rfl h
  obtain ⟨y, hy, hyw⟩ := Json.mem_of_list h hw
  rw [Json.value_eq_ok] at hyw
  exact hyw ▸ .part (hp ▸ hl) (Json.within_of_mem_parts hy)

theorem Payload.Path.within {payload : Json} {hops : List (Hop Json)}
    (h : Payload.Path.read payload = .ok hops) {hop : Hop Json} (hmem : hop ∈ hops) :
    Within hop.address payload := by
  obtain ⟨p, hp, h⟩ := Json.exists_parts_of_record h
  rcases Json.Parts.get_defaulted h with rfl | ⟨l, hl, h⟩
  · cases hmem
  · obtain ⟨y, hy, hread⟩ := Json.mem_of_list h hmem
    have hw := Json.within_of_mem_parts (Payload.Path.address_mem hread)
    exact .part (hp ▸ hl) (.part hy hw)

theorem Step.ofPayload?_within {s : Step} {payload w : Json} (h : s.ofPayload? payload = some w) :
    Within w payload := by
  cases s with
  | member i =>
    obtain ⟨vs, hvs, hi⟩ := Option.bind_eq_some_iff.1 h
    exact Payload.Members.within (eq_ok_of_toOption hvs) (List.mem_of_getElem? hi)
  | instanced =>
    obtain ⟨x, hx, rfl⟩ := Option.map_eq_some_iff.1 h
    exact Json.within_of_mem_parts (Payload.InstanceId.address_mem (eq_ok_of_toOption hx))
  | flow =>
    obtain ⟨x, hx, rfl⟩ := Option.map_eq_some_iff.1 h
    exact Json.within_of_mem_parts (Payload.ApplicationData.address_mem (eq_ok_of_toOption hx))
  | hop i =>
    obtain ⟨hops, hhops, hi⟩ := Option.bind_eq_some_iff.1 h
    obtain ⟨hop, hhop, rfl⟩ := Option.map_eq_some_iff.1 hi
    exact Payload.Path.within (eq_ok_of_toOption hhops) (List.mem_of_getElem? hhop)
  | source =>
    obtain ⟨x, hx, rfl⟩ := Option.map_eq_some_iff.1 h
    exact Json.within_of_mem_parts (Payload.SourceDest.addresses_mem (eq_ok_of_toOption hx)).1
  | dest =>
    obtain ⟨x, hx, rfl⟩ := Option.map_eq_some_iff.1 h
    exact Json.within_of_mem_parts (Payload.SourceDest.addresses_mem (eq_ok_of_toOption hx)).2
  | key =>
    obtain ⟨x, hx, rfl⟩ := Option.map_eq_some_iff.1 h
    exact Json.within_of_mem_parts (Payload.KeyValue.addresses_mem (eq_ok_of_toOption hx)).1
  | value =>
    obtain ⟨x, hx, rfl⟩ := Option.map_eq_some_iff.1 h
    exact Json.within_of_mem_parts (Payload.KeyValue.addresses_mem (eq_ok_of_toOption hx)).2

theorem part?_within {s : Step} {v w : Json} (h : part? s v = some w) : Within w v := by
  cases v with
  | object fs =>
    simp only [part?] at h
    split at h
    · obtain ⟨payload, hl, hw⟩ := Option.bind_eq_some_iff.1 h
      exact (Step.ofPayload?_within hw).trans (Json.within_lookup hl)
    · cases h
  | _ => simp [part?] at h

theorem source?_within {p : Position} {v w : Json} (h : source? p v = some w) : Within w v := by
  induction p generalizing v with
  | nil =>
    cases h
    exact .refl _
  | cons s p ih =>
    obtain ⟨u, hu, hw⟩ := Option.bind_eq_some_iff.1 h
    exact (ih hw).trans (part?_within hu)

def Reads (v : Json) (a : Address) : Prop :=
  a = ofWire v ∨ a = (ofWire v).splitPrefix.1

theorem child?_splitPrefix (s : Step) (a : Address) : child? s a.splitPrefix.1 = child? s a := by
  cases a with
  | ipv4 | ipv6 => cases s <;> rfl
  | _ => rfl

theorem child?_of_isScalar {a : Address} (h : a.isScalar = true) (s : Step) :
    child? s a = none := by
  cases a with
  | noAddress | ipv4 | ipv6 | mac | distinguishedName | asNumber => cases s <;> rfl
  | _ => simp [isScalar] at h

theorem FromPayload.child {payload : Json} {name : String} {a c : Address} {s : Step}
    (h : FromPayload payload name a) (hc : child? s a = some c) :
    s.payloadName = name ∧ ∃ w, s.ofPayload? payload = some w ∧ Reads w c := by
  cases h with
  | list h =>
    cases s with
    | member i =>
      rw [child?, List.getElem?_map] at hc
      obtain ⟨w, hw, rfl⟩ := Option.map_eq_some_iff.1 hc
      exact ⟨rfl, w, by simp [Step.ofPayload?, h, Except.toOption, hw], .inl rfl⟩
    | _ => cases hc
  | instanceId h =>
    cases s with
    | instanced =>
      cases hc
      exact ⟨rfl, _, by simp [Step.ofPayload?, h, Except.toOption], .inl rfl⟩
    | _ => cases hc
  | unmasked h =>
    cases s with
    | instanced =>
      cases hc
      exact ⟨rfl, _, by simp [Step.ofPayload?, h, Except.toOption], .inr rfl⟩
    | _ => cases hc
  | applicationData h =>
    cases s with
    | flow =>
      cases hc
      exact ⟨rfl, _, by simp [Step.ofPayload?, h, Except.toOption], .inl rfl⟩
    | _ => cases hc
  | locatorPath h =>
    cases s with
    | hop i =>
      rw [child?, List.getElem?_map, Option.map_map] at hc
      obtain ⟨hop, hi, rfl⟩ := Option.map_eq_some_iff.1 hc
      exact ⟨rfl, hop.address, by simp [Step.ofPayload?, h, Except.toOption, hi], .inl rfl⟩
    | _ => cases hc
  | sourceDest h =>
    cases s with
    | source =>
      cases hc
      exact ⟨rfl, _, by simp [Step.ofPayload?, h, Except.toOption], .inr rfl⟩
    | dest =>
      cases hc
      exact ⟨rfl, _, by simp [Step.ofPayload?, h, Except.toOption], .inr rfl⟩
    | _ => cases hc
  | keyValue h =>
    cases s with
    | key =>
      cases hc
      exact ⟨rfl, _, by simp [Step.ofPayload?, h, Except.toOption], .inl rfl⟩
    | value =>
      cases hc
      exact ⟨rfl, _, by simp [Step.ofPayload?, h, Except.toOption], .inl rfl⟩
    | _ => cases hc
  | plain h =>
    rw [child?_of_isScalar (scalar_of_ofPlainPayload h).1] at hc
    cases hc

theorem FromWire.child {v : Json} {a c : Address} {s : Step} (h : FromWire v a)
    (hc : child? s a = some c) : ∃ w, part? s v = some w ∧ Reads w c := by
  cases h with
  | string t =>
    rw [child?_of_isScalar (isSimple_ofSimple _).isScalar] at hc
    cases hc
  | object hn h0 hl h =>
    obtain ⟨rfl, w, hw, hr⟩ := h.child hc
    exact ⟨w, by simp [part?, hn, hl, hw], hr⟩
  | number | noAddress | unrenderable => cases s <;> cases hc

theorem Reads.child {v : Json} {a c : Address} {s : Step} (h : Reads v a)
    (hc : child? s a = some c) : ∃ w, part? s v = some w ∧ Reads w c := by
  rcases h with rfl | rfl
  · exact (fromWire v).child hc
  · rw [child?_splitPrefix] at hc
    exact (fromWire v).child hc

theorem Reads.descend {p : Position} {v : Json} {a c : Address} (h : Reads v a)
    (hc : descend? p a = some c) : ∃ w, source? p v = some w ∧ Reads w c := by
  induction p generalizing v a with
  | nil =>
    cases hc
    exact ⟨v, rfl, h⟩
  | cons s p ih =>
    obtain ⟨b, hb, hc⟩ := Option.bind_eq_some_iff.1 hc
    obtain ⟨u, hu, hread⟩ := h.child hb
    obtain ⟨w, hw, hr⟩ := ih hread hc
    exact ⟨w, by simp [source?, hu, hw], hr⟩

theorem FromWire.raw_eq {v raw : Json} {tag : String} {reason : Unreadable}
    (h : FromWire v (.unrenderable tag reason raw)) : raw = v := by
  generalize ha : Address.unrenderable tag reason raw = a at h
  cases h with
  | string s =>
    have hs := (isSimple_ofSimple s.toList).isScalar
    rw [← ha] at hs
    cases hs
  | object hn h0 hl h =>
    subst ha
    cases h with
    | plain h => cases (scalar_of_ofPlainPayload h).1
  | number | noAddress => cases ha
  | unrenderable => cases ha; rfl

theorem Step.names (s : Step) : Names s.payloadName := by
  cases s <;> constructor <;> simp [payloadName]

theorem part?_tagged {s : Step} {name ending : String} (he : Ending ending)
    (hs : s.payloadName = name) (payload : Json) :
    part? s (tagged (name ++ ending) name payload) = s.ofPayload? payload := by
  have hn : Names name := hs ▸ s.names
  rw [tagged, part?, payloadName?_tagged he hn.colon, hs, if_pos rfl, hn.lookup]
  rfl

theorem part?_toWire {s : Step} {a c : Address} (h : child? s a = some c) :
    part? s (toWire a) = some (toWire c) := by
  cases a with
  | list members =>
    cases s with
    | member i =>
      have hread := Payload.Members.read_object (members.map toWire)
      rw [child?] at h
      rw [toWire_list]
      refine (part?_tagged .lcaf rfl _).trans ?_
      simp [Step.ofPayload?, hread, Except.toOption, h]
    | _ => cases h
  | instanceId iid mask a =>
    cases s with
    | instanced =>
      have hread := Payload.InstanceId.read_object iid mask (toWire a)
      cases h
      refine (part?_tagged .lcaf rfl _).trans ?_
      simp [Step.ofPayload?, hread, Except.toOption]
    | _ => cases h
  | applicationData a flow =>
    cases s with
    | flow =>
      have hread := Payload.ApplicationData.read_object (toWire a) flow
      cases h
      refine (part?_tagged .lcaf rfl _).trans ?_
      simp [Step.ofPayload?, hread, Except.toOption]
    | _ => cases h
  | locatorPath hops =>
    cases s with
    | hop i =>
      have hread := Payload.Path.read_object (each_readHop hops)
      obtain ⟨hop, hi, rfl⟩ := Option.map_eq_some_iff.1 h
      rw [toWire_locatorPath]
      refine (part?_tagged .lcaf rfl _).trans ?_
      simp [Step.ofPayload?, hread, Except.toOption, hi]
    | _ => cases h
  | sourceDest source m dest n =>
    have hread := Payload.SourceDest.read_object (toWire source) (toWire dest) m n
    cases s with
    | source | dest =>
      cases h
      refine (part?_tagged .lcaf rfl _).trans ?_
      simp [Step.ofPayload?, hread, Except.toOption]
    | _ => cases h
  | keyValue key value =>
    have hread := Payload.KeyValue.read_object (toWire key) (toWire value)
    cases s with
    | key | value =>
      cases h
      refine (part?_tagged .lcaf rfl _).trans ?_
      simp [Step.ofPayload?, hread, Except.toOption]
    | _ => cases h
  | _ => cases s <;> cases h

theorem source?_toWire {p : Position} {a c : Address} (h : descend? p a = some c) :
    source? p (toWire a) = some (toWire c) := by
  induction p generalizing a with
  | nil =>
    cases h
    rfl
  | cons s p ih =>
    obtain ⟨b, hb, hc⟩ := Option.bind_eq_some_iff.1 h
    rw [source?, part?_toWire hb]
    exact ih hc

theorem Reads.unrenderable {v raw : Json} {tag : String} {reason : Unreadable}
    (h : Reads v (.unrenderable tag reason raw)) :
    raw = v ∧ ofWire v = .unrenderable tag reason raw := by
  have ha : ofWire v = .unrenderable tag reason raw := by
    rcases h with h | h
    · exact h.symm
    · cases hv : ofWire v with
      | unrenderable => rw [hv] at h; exact h.symm
      | _ => rw [hv] at h; cases h
  have hf := fromWire v
  rw [ha] at hf
  exact ⟨hf.raw_eq, ha⟩

theorem source?_unrenderable {p : Position} {v raw : Json} {tag : String} {reason : Unreadable}
    (h : descend? p (ofWire v) = some (.unrenderable tag reason raw)) :
    source? p v = some raw ∧ ofWire raw = .unrenderable tag reason raw := by
  obtain ⟨w, hw, hr⟩ := Reads.descend (.inl rfl) h
  obtain ⟨rfl, ha⟩ := hr.unrenderable
  exact ⟨hw, ha⟩

/-- Reading what is written back changes nothing, and every value that could not be read stands in
its place again, untouched. -/
theorem ofWire_toWire_ofWire (v : Json) :
    ofWire (toWire (ofWire v)) = ofWire v ∧
      (∀ p tag reason raw, descend? p (ofWire v) = some (.unrenderable tag reason raw) →
        source? p v = some raw ∧ Within raw v ∧ ofWire raw = .unrenderable tag reason raw ∧
          source? p (toWire (ofWire v)) = some raw) ∧
      ∀ tag reason raw, ofWire v = .unrenderable tag reason raw → toWire (ofWire v) = v := by
  refine ⟨(wellFormed_ofWire v).ofWire_toWire, ?_, ?_⟩
  · intro p tag reason raw h
    obtain ⟨hs, ha⟩ := source?_unrenderable h
    exact ⟨hs, source?_within hs, ha, source?_toWire h⟩
  · intro tag reason raw h
    have hf := fromWire v
    rw [h] at hf
    rw [h]
    exact hf.raw_eq

theorem unreadable_member_kept :
    let v := tagged ("afi-list" ++ "-lcaf") "afi-list"
      (.object [("address-list", .array [.bool true])])
    descend? [.member 0] (ofWire v) = some (.unrenderable "" .notAddress (.bool true)) ∧
      source? [.member 0] (toWire (ofWire v)) = some (.bool true) := by
  intro v
  have hm : ofWire (.bool true) = .unrenderable "" .notAddress (.bool true) := by
    rw [ofWire] <;> simp
  have hv : ofWire v = .list [ofWire (.bool true)] :=
    ofWire_tagged .lcaf (by constructor <;> simp)
      (.list (Payload.Members.read_object [.bool true]))
  have hd : descend? [.member 0] (ofWire v) = some (.unrenderable "" .notAddress (.bool true)) := by
    rw [hv, hm]
    rfl
  obtain ⟨-, -, -, h⟩ := (ofWire_toWire_ofWire v).2.1 _ _ _ _ hd
  exact ⟨hd, h⟩

end EidMap.Address
