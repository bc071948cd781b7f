import EidMap.Address.Basic
import EidMap.Proofs.Ip.V6

/-!
# Bare texts

A bare text is an IP address with a mask length in range, a MAC address or a name, and nothing else.
The text of an IP address, with its mask length or without, is read as that address.
-/

namespace EidMap.Address

open Text (digits isHex)

inductive IsSimple (cs : List Char) : Address → Prop
  | ipv4 (v : Ip.V4) (length : Option UInt8) (range : ∀ n ∈ length, n ≤ 32) :
      IsSimple cs (.ipv4 v length)
  | ipv6 (v : Ip.V6) (length : Option UInt8) (range : ∀ n ∈ length, n ≤ 128) :
      IsSimple cs (.ipv6 v length)
  | mac (h : isMac cs = true) : IsSimple cs (.mac (String.ofList cs))
  | name : IsSimple cs (.distinguishedName (String.ofList cs))

theorem IsSimple.isScalar {cs : List Char} {a : Address} (h : IsSimple cs a) :
    a.isScalar = true := by
  cases h <;> rfl

theorem isSimple_named (cs : List Char) : IsSimple cs (ofSimple.named cs) := by
  unfold ofSimple.named
  split
  · rename_i h
    exact .mac h
  · exact .name

theorem range_of_all {length : Option UInt8} {most : UInt8}
    (h : (length.all fun n => decide (n ≤ most)) = true) : ∀ n ∈ length, n ≤ most := by
  intro n hn
  rw [Option.mem_def.1 hn] at h
  simpa using h

theorem isSimple_other (cs host : List Char) (length : Option UInt8) :
    IsSimple cs (ofSimple.other cs host length) := by
  unfold ofSimple.other
  split
  · split
    · rename_i v _ h
      exact .ipv6 v length (range_of_all h)
    · exact isSimple_named cs
  · exact isSimple_named cs

theorem isSimple_ofSimple (cs : List Char) : IsSimple cs (ofSimple cs) := by
  unfold ofSimple
  split
  split
  · split
    · rename_i v _ h
      exact .ipv4 v _ (range_of_all h)
    · exact isSimple_other cs _ _
  · exact isSimple_other cs _ _

def lengthened (host : List Char) : Option UInt8 → List Char
  | none => host
  | some n => host ++ '/' :: digits n.toNat

theorem slash_not_mem_digits (n : Nat) : '/' ∉ digits n := by
  intro h
  have := Text.isDigit_of_mem_digits h
  simp at this

theorem cutLength_lengthened {host : List Char} (h : '/' ∉ host) (length : Option UInt8) :
    cutLength (lengthened host length) = (host, length) := by
  cases length with
  | none => rw [lengthened, cutLength, Text.cutLast_eq_none h]
  | some n =>
    rw [lengthened, cutLength, Text.cutLast_append _ (slash_not_mem_digits _)]
    simp only [Text.uint8?_digits]

theorem all_of_range {length : Option UInt8} {most : UInt8} (h : ∀ n ∈ length, n ≤ most) :
    (length.all fun n => decide (n ≤ most)) = true := by
  cases length with
  | none => rfl
  | some n => simpa using h n rfl

theorem slash_not_mem_v4 (v : Ip.V4) : '/' ∉ v.text := by
  intro h
  rcases Ip.V4.mem_text h with h | h
  · cases h
  · cases h

theorem slash_not_mem_v6 (v : Ip.V6) : '/' ∉ v.text := by
  intro h
  rcases Ip.V6.mem_text h with h | h | h
  · cases h
  · cases h
  · cases h

theorem ofSimple_ipv4 (v : Ip.V4) {length : Option UInt8} (h : ∀ n ∈ length, n ≤ 32) :
    ofSimple (lengthened v.text length) = .ipv4 v length := by
  simp only [ofSimple, cutLength_lengthened (slash_not_mem_v4 v), Ip.V4.read?_text,
    all_of_range h, if_true]

theorem ofSimple_ipv6 (v : Ip.V6) {length : Option UInt8} (h : ∀ n ∈ length, n ≤ 128) :
    ofSimple (lengthened v.text length) = .ipv6 v length := by
  simp only [ofSimple, cutLength_lengthened (slash_not_mem_v6 v), Ip.V6.v4_read?_text,
    ofSimple.other, Ip.V6.read?_text, all_of_range h, if_true]

theorem mem_of_isMac {cs : List Char} (h : isMac cs = true) {c : Char} (hc : c ∈ cs) :
    isHex c = true ∨ c = ':' ∨ c = '-' := by
  unfold isMac at h
  generalize hs : (if cs.contains ':' then ':' else '-') = sep at h
  have hsep : sep = ':' ∨ sep = '-' := by
    rw [← hs]
    split
    · exact .inl rfl
    · exact .inr rfl
  simp only [Bool.and_eq_true, List.all_eq_true] at h
  obtain rfl | ⟨p, hp, hcp⟩ := Text.mem_pieces sep hc
  · exact .inr hsep
  · exact .inl ((h.2 p hp).2 c hcp)

def Numeric (c : Char) : Prop :=
  isHex c = true ∨ c = ':' ∨ c = '.' ∨ c = '/' ∨ c = '+' ∨ c = '-'

instance : DecidablePred Numeric := fun _ => inferInstanceAs (Decidable (_ ∨ _))

theorem mem_cutLength {cs : List Char} {c : Char} (h : c ∈ cs) (hc : ¬ Numeric c) :
    c ∈ (cutLength cs).1 := by
  unfold cutLength
  split
  · exact h
  · rename_i before after hcut
    split
    · rename_i n hn
      obtain ⟨rfl, -⟩ := Text.eq_of_cutLast hcut
      rcases List.mem_append.1 h with h | h
      · exact h
      rcases List.mem_cons.1 h with rfl | h
      · exact absurd (by decide) hc
      -- what is cut off is a numeral
      have hdigit : c.isDigit = false := Bool.eq_false_iff.2 fun hd =>
        hc (.inl (Text.isHex_of_isDigit hd))
      have hplus : c ≠ '+' := fun hp => hc (.inr (.inr (.inr (.inr (.inl hp)))))
      exact absurd h (Text.not_mem_of_uint8? hn hdigit hplus)
    · exact h

theorem not_isMac_of_mem {cs : List Char} {c : Char} (h : c ∈ cs) (hc : ¬ Numeric c) :
    isMac cs = false := by
  apply Bool.eq_false_iff.2
  intro hm
  rcases mem_of_isMac hm h with h | h | h
  · exact hc (.inl h)
  · exact hc (.inr (.inl h))
  · exact hc (.inr (.inr (.inr (.inr (.inr h)))))

theorem ofSimple_of_mem {cs : List Char} {c : Char} (h : c ∈ cs) (hc : ¬ Numeric c) :
    ofSimple cs = .distinguishedName (String.ofList cs) := by
  have hhost := mem_cutLength h hc
  have h4 : Ip.V4.read? (cutLength cs).1 = none := by
    apply Option.eq_none_iff_forall_ne_some.2
    intro v hv
    rcases Ip.V4.isDigit_or_dot_of_read? hv c hhost with h | h
    · exact hc (.inl (Text.isHex_of_isDigit h))
    · exact hc (.inr (.inr (.inl h)))
  have h6 : Ip.V6.read? (cutLength cs).1 = none := by
    apply Option.eq_none_iff_forall_ne_some.2
    intro v hv
    rcases Ip.V6.isPart_of_read? hv c hhost with h | h | h
    · exact hc (.inl h)
    · exact hc (.inr (.inl h))
    · exact hc (.inr (.inr (.inl h)))
  simp [ofSimple, ofSimple.other, ofSimple.named, h4, h6, not_isMac_of_mem h hc]

end EidMap.Address
