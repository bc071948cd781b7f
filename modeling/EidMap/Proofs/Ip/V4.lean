import EidMap.Ip.V4
import EidMap.Proofs.Text.Cut
import EidMap.Proofs.Text.Numeral

/-!
# The dotted text of an IPv4 address is read back

Main statements: `read?_text` for a text on its own, `readHead?_text` for one that other text
follows.
-/

namespace EidMap.Ip.V4

open Text (digits)

theorem octet?_digits (n : UInt8) : octet? (digits n.toNat) = some n := by
  have hn : n.toNat < 256 := n.toNat_lt
  have hthree : n.toNat < 1000 := by omega
  have hlen : (digits n.toNat).length ≤ 3 := Text.positional_digits.length_le hthree
  have hall := Text.all_isDigit_digits n.toNat
  unfold octet?
  split
  · rename_i h
    exact absurd h (Text.digits_ne_nil _)
  · rename_i c cs h
    have hz : n.toNat = 0 := by
      have hh := Text.positional_digits.head?_ne (n := n.toNat) (by decide)
      rw [h] at hh
      exact Nat.eq_zero_of_not_pos fun hpos => hh hpos rfl
    rw [hz, Text.positional_digits.of_lt (by decide)] at h
    simp at h
  · rw [if_pos (by simp [hall, hlen]), Text.uint8?_digits]

theorem isDigit_of_octet? {cs : List Char} {n : UInt8} (h : octet? cs = some n) :
    ∀ c ∈ cs, c.isDigit = true := by
  unfold octet? at h
  split at h
  · cases h
  · cases h
  · split at h
    · rename_i hd
      rw [Bool.and_eq_true] at hd
      exact List.all_eq_true.1 hd.1
    · cases h

theorem text_eq (v : V4) : v.text = digits v.a.toNat ++ '.' :: (digits v.b.toNat ++
    '.' :: (digits v.c.toNat ++ '.' :: digits v.d.toNat)) := by
  simp [text]

theorem dot_not_mem_digits (n : Nat) : '.' ∉ digits n := by
  intro h
  have := Text.isDigit_of_mem_digits h
  simp at this

theorem read?_text (v : V4) : read? v.text = some v := by
  rw [read?, text_eq, Text.pieces_append (dot_not_mem_digits _),
    Text.pieces_append (dot_not_mem_digits _), Text.pieces_append (dot_not_mem_digits _),
    Text.pieces_eq_singleton (dot_not_mem_digits _)]
  simp [ofPieces?, octet?_digits]

theorem isDigit_or_dot_of_read? {cs : List Char} {v : V4} (h : read? cs = some v) :
    ∀ c ∈ cs, c.isDigit = true ∨ c = '.' := by
  intro c hc
  obtain rfl | ⟨p, hp, hcp⟩ := Text.mem_pieces '.' hc
  · exact .inr rfl
  · left
    rw [read?] at h
    unfold ofPieces? at h
    split at h
    · rename_i a b e d hps
      rw [hps] at hp
      simp only [Option.bind_eq_bind, Option.bind_eq_some_iff] at h
      obtain ⟨_, ha, _, hb, _, he, _, hd, -⟩ := h
      simp only [List.mem_cons, List.not_mem_nil, or_false] at hp
      rcases hp with rfl | rfl | rfl | rfl
      · exact isDigit_of_octet? ha c hcp
      · exact isDigit_of_octet? hb c hcp
      · exact isDigit_of_octet? he c hcp
      · exact isDigit_of_octet? hd c hcp
    · cases h

theorem mem_text {v : V4} {c : Char} (h : c ∈ v.text) : c.isDigit = true ∨ c = '.' :=
  isDigit_or_dot_of_read? (read?_text v) c h

theorem octetHead?_digits (n : UInt8) {rest : List Char}
    (h : ∀ c ∈ rest.head?, c.isDigit = false) :
    readHead?.octetHead? (digits n.toNat ++ rest) = some (n, rest) := by
  have hd : ∀ c ∈ digits n.toNat, c.isDigit = true := fun c hc => Text.isDigit_of_mem_digits hc
  rw [readHead?.octetHead?, Text.takeWhile_append_eq hd h, Text.dropWhile_append_eq hd h,
    octet?_digits]
  rfl

theorem readHead?_text (v : V4) {rest : List Char} (h : ∀ c ∈ rest.head?, c.isDigit = false) :
    readHead? (v.text ++ rest) = some (v, rest) := by
  have hdot : ∀ cs : List Char, ∀ c ∈ ('.' :: cs).head?, c.isDigit = false := by
    intro cs c hc
    cases hc
    rfl
  rw [text_eq]
  simp only [List.append_assoc, List.cons_append, readHead?, readHead?.dot?,
    octetHead?_digits _ (hdot _), octetHead?_digits _ h, Option.bind_eq_bind, Option.bind_some]
  rfl

theorem octetHead?_suffix {cs rest : List Char} {n : UInt8}
    (h : readHead?.octetHead? cs = some (n, rest)) : rest <:+ cs := by
  obtain ⟨_, -, he⟩ := Option.map_eq_some_iff.1 h
  cases he
  exact List.dropWhile_suffix _

theorem readHead?_follows {cs rest : List Char} {v : V4} (h : readHead? cs = some (v, rest)) :
    Text.Follows (fun c => c.isDigit = true ∨ c = '.') rest cs := by
  have octet : ∀ {cs rest : List Char} {n : UInt8}, readHead?.octetHead? cs = some (n, rest) →
      Text.Follows (fun c => c.isDigit = true ∨ c = '.') rest cs := by
    intro cs rest n h
    obtain ⟨_, -, he⟩ := Option.map_eq_some_iff.1 h
    cases he
    exact .dropWhile (fun c hc => .inl hc) cs
  have dot : ∀ {cs rest : List Char}, readHead?.dot? cs = some rest →
      Text.Follows (fun c => c.isDigit = true ∨ c = '.') rest cs := by
    intro cs rest h
    unfold readHead?.dot? at h
    split at h
    · cases h
      exact .cons (.inr rfl) _
    · cases h
  simp only [readHead?, Option.bind_eq_bind, Option.bind_eq_some_iff] at h
  obtain ⟨⟨a, cs₁⟩, ha, cs₂, h₂, ⟨b, cs₃⟩, hb, cs₄, h₄, ⟨c, cs₅⟩, hc, cs₆, h₆, ⟨d, cs₇⟩, hd, he⟩ := h
  cases he
  exact (octet ha).trans <| (dot h₂).trans <| (octet hb).trans <| (dot h₄).trans <|
    (octet hc).trans <| (dot h₆).trans (octet hd)

theorem dot_mem_of_dot? {cs rest : List Char} (h : readHead?.dot? cs = some rest) : '.' ∈ cs := by
  unfold readHead?.dot? at h
  split at h
  · exact List.mem_cons_self
  · cases h

theorem readHead?_of_head? {cs : List Char} (h : ∀ c ∈ cs.head?, c.isDigit = false) :
    readHead? cs = none := by
  simp [readHead?, readHead?.octetHead?, Text.takeWhile_eq_nil h, octet?]

theorem readHead?_eq_none {cs : List Char} (h : '.' ∉ cs) : readHead? cs = none := by
  apply Option.eq_none_iff_forall_ne_some.2
  intro x hx
  simp only [readHead?, Option.bind_eq_bind, Option.bind_eq_some_iff] at hx
  obtain ⟨⟨a, cs₁⟩, ha, cs₂, hdot, -⟩ := hx
  exact h ((octetHead?_suffix ha).subset (dot_mem_of_dot? hdot))

end EidMap.Ip.V4
