import EidMap.Text.Numeral

/-!
# Numerals and the numbers they spell

Decimal and hexadecimal digits come from one recursion, so the laws of a positional numeral are
proved once for both. The digits of a number are read back as that number, with or without zeros in
front, and the words of 8 and 32 bits read back from their own digits.
-/

namespace EidMap.Text

/-- `f` writes numbers in base `b` with the digits `g`. -/
structure Positional (b : Nat) (g : Nat → Char) (f : Nat → List Char) : Prop where
  two_le : 2 ≤ b
  eq : ∀ n, f n = if n < b then [g n] else f (n / b) ++ [g (n % b)]

namespace Positional

variable {b : Nat} {g : Nat → Char} {f : Nat → List Char}

theorem of_lt (h : Positional b g f) {n : Nat} (hn : n < b) : f n = [g n] := by
  rw [h.eq, if_pos hn]

theorem of_ge (h : Positional b g f) {n : Nat} (hn : ¬ n < b) :
    f n = f (n / b) ++ [g (n % b)] := by
  rw [h.eq, if_neg hn]

theorem div_lt (h : Positional b g f) {n : Nat} (hn : ¬ n < b) : n / b < n := by
  have hb := h.two_le
  exact Nat.div_lt_self (by omega) (by omega)

theorem mod_lt (h : Positional b g f) (n : Nat) : n % b < b := by
  have hb := h.two_le
  exact Nat.mod_lt _ (by omega)

theorem ne_nil (h : Positional b g f) (n : Nat) : f n ≠ [] := by
  by_cases hn : n < b
  · rw [h.of_lt hn]
    simp
  · rw [h.of_ge hn]
    simp

theorem all (h : Positional b g f) {p : Char → Bool} (hp : ∀ n < b, p (g n) = true) (n : Nat) :
    (f n).all p = true := by
  induction n using Nat.strongRecOn with
  | ind n ih =>
    by_cases hn : n < b
    · rw [h.of_lt hn]
      simp [hp n hn]
    · rw [h.of_ge hn, List.all_append, ih _ (h.div_lt hn)]
      simp [hp _ (h.mod_lt n)]

theorem foldl_eq (h : Positional b g f) {value : Char → Nat} (hv : ∀ n < b, value (g n) = n)
    (n : Nat) : (f n).foldl (fun m c => b * m + value c) 0 = n := by
  induction n using Nat.strongRecOn with
  | ind n ih =>
    by_cases hn : n < b
    · rw [h.of_lt hn]
      simp [hv n hn]
    · rw [h.of_ge hn, List.foldl_append, ih _ (h.div_lt hn)]
      simp only [List.foldl_cons, List.foldl_nil]
      rw [hv _ (h.mod_lt n)]
      exact Nat.div_add_mod n b

theorem length_le (h : Positional b g f) {k n : Nat} (hn : n < Nat.pow b (k + 1)) :
    (f n).length ≤ k + 1 := by
  induction k generalizing n with
  | zero =>
    rw [h.of_lt (by simpa [Nat.pow] using hn)]
    simp
  | succ k ih =>
    by_cases hb : n < b
    · rw [h.of_lt hb]
      simp
    · have hd : n / b < Nat.pow b (k + 1) := by
        apply Nat.div_lt_of_lt_mul
        rwa [Nat.mul_comm]
      have hl := ih hd
      rw [h.of_ge hb, List.length_append]
      simp only [List.length_cons, List.length_nil]
      omega

theorem head?_ne (h : Positional b g f) (hg : ∀ n < b, g n = g 0 → n = 0) {n : Nat}
    (hn : 0 < n) : (f n).head? ≠ some (g 0) := by
  induction n using Nat.strongRecOn with
  | ind n ih =>
    by_cases hb : n < b
    · rw [h.of_lt hb]
      intro he
      have := hg n hb (by simpa using he)
      omega
    · have hd : 0 < n / b := Nat.div_pos (by omega) (by have := h.two_le; omega)
      have hr := ih _ (h.div_lt hb) hd
      rw [h.of_ge hb]
      cases hf : f (n / b) with
      | nil => exact absurd hf (h.ne_nil _)
      | cons c cs =>
        rw [hf] at hr
        simpa using hr

end Positional

theorem positional_digits : Positional 10 digit digits :=
  ⟨by decide, fun n => by rw [digits]⟩

theorem positional_hexDigits : Positional 16 hexDigit hexDigits :=
  ⟨by decide, fun n => by rw [hexDigits]⟩

theorem digit_value : ∀ n < 10, (digit n).toNat - 48 = n := by decide

theorem isDigit_digit : ∀ n < 10, (digit n).isDigit = true := by decide

theorem digits_ne_nil (n : Nat) : digits n ≠ [] := positional_digits.ne_nil n

theorem all_isDigit_digits (n : Nat) : (digits n).all Char.isDigit = true :=
  positional_digits.all isDigit_digit n

theorem isDigit_of_mem_digits {n : Nat} {c : Char} (h : c ∈ digits n) : c.isDigit = true :=
  List.all_eq_true.1 (all_isDigit_digits n) c h

theorem ofDigits_digits (n : Nat) : ofDigits (digits n) = n :=
  positional_digits.foldl_eq digit_value n

theorem unsigned?_digits (n : Nat) : unsigned? (digits n) = some n := by
  have hne : (digits n).isEmpty = false := by
    simpa [List.isEmpty_iff] using digits_ne_nil n
  rw [unsigned?, hne, all_isDigit_digits, ofDigits_digits]
  rfl

theorem natural?_of_all_isDigit {cs : List Char} (h : cs.all Char.isDigit = true) :
    natural? cs = unsigned? cs := by
  unfold natural?
  split
  · simp at h
  · rfl

theorem natural?_digits (n : Nat) : natural? (digits n) = some n := by
  rw [natural?_of_all_isDigit (all_isDigit_digits n), unsigned?_digits]

theorem uint8?_digits (n : UInt8) : uint8? (digits n.toNat) = some n := by
  have hn : n.toNat < UInt8.size := n.toNat_lt
  rw [uint8?, natural?_digits]
  simp only [Option.bind_some, if_pos hn, UInt8.ofNat_toNat]

theorem uint32?_digits (n : UInt32) : uint32? (digits n.toNat) = some n := by
  have hn : n.toNat < UInt32.size := n.toNat_lt
  rw [uint32?, natural?_digits]
  simp only [Option.bind_some, if_pos hn, UInt32.ofNat_toNat]

theorem isDigit_or_plus_of_natural? {cs : List Char} {n : Nat} (h : natural? cs = some n) :
    ∀ c ∈ cs, c.isDigit = true ∨ c = '+' := by
  have all : ∀ {ds : List Char}, unsigned? ds = some n → ∀ c ∈ ds, c.isDigit = true := by
    intro ds h
    unfold unsigned? at h
    split at h
    · rename_i hds
      rw [Bool.and_eq_true] at hds
      exact List.all_eq_true.1 hds.2
    · cases h
  intro c hc
  unfold natural? at h
  split at h
  · rcases List.mem_cons.1 hc with rfl | hc
    · exact .inr rfl
    · exact .inl (all h c hc)
  · exact .inl (all h c hc)

theorem not_mem_of_natural? {cs : List Char} {n : Nat} (h : natural? cs = some n) {c : Char}
    (digit : c.isDigit = false) (plus : c ≠ '+') : c ∉ cs := by
  intro hc
  rcases isDigit_or_plus_of_natural? h c hc with hd | hp
  · rw [digit] at hd
    cases hd
  · exact plus hp

theorem not_mem_of_uint8? {cs : List Char} {n : UInt8} (h : uint8? cs = some n) {c : Char}
    (digit : c.isDigit = false) (plus : c ≠ '+') : c ∉ cs := by
  obtain ⟨m, hm, -⟩ := Option.bind_eq_some_iff.1 h
  exact not_mem_of_natural? hm digit plus

theorem not_mem_of_uint32? {cs : List Char} {n : UInt32} (h : uint32? cs = some n) {c : Char}
    (digit : c.isDigit = false) (plus : c ≠ '+') : c ∉ cs := by
  obtain ⟨m, hm, -⟩ := Option.bind_eq_some_iff.1 h
  exact not_mem_of_natural? hm digit plus

theorem length_padZeros {width : Nat} {cs : List Char} (h : cs.length ≤ width) :
    (padZeros width cs).length = width := by
  simp only [padZeros, List.length_append, List.length_replicate]
  omega

theorem foldl_padZeros {f : Nat → Char → Nat} (h : f 0 '0' = 0) (width : Nat) (cs : List Char) :
    (padZeros width cs).foldl f 0 = cs.foldl f 0 := by
  have hzeros : ∀ k, (List.replicate k '0').foldl f 0 = 0 := by
    intro k
    induction k with
    | zero => rfl
    | succ k ih => rw [List.replicate_succ, List.foldl_cons, h, ih]
  rw [padZeros, List.foldl_append, hzeros]

theorem isDigit_of_mem_padZeros {width n : Nat} {c : Char} (h : c ∈ padZeros width (digits n)) :
    c.isDigit = true := by
  rcases List.mem_append.1 h with hzero | hdigit
  · rw [List.eq_of_mem_replicate hzero]
    rfl
  · exact isDigit_of_mem_digits hdigit

theorem hexValue?_hexDigit : ∀ n < 16, hexValue? (hexDigit n) = some n := by decide

theorem hexDigits_ne_nil (n : Nat) : hexDigits n ≠ [] := positional_hexDigits.ne_nil n

theorem all_isHex_hexDigits (n : Nat) : (hexDigits n).all isHex = true :=
  positional_hexDigits.all (fun n hn => by rw [isHex, hexValue?_hexDigit n hn]; rfl) n

theorem isHex_of_mem_hexDigits {n : Nat} {c : Char} (h : c ∈ hexDigits n) : isHex c = true :=
  List.all_eq_true.1 (all_isHex_hexDigits n) c h

theorem ofHex_hexDigits (n : Nat) : ofHex (hexDigits n) = n :=
  positional_hexDigits.foldl_eq (fun n hn => by rw [hexValue?_hexDigit n hn]; rfl) n

theorem isHex_of_isDigit {c : Char} (h : c.isDigit = true) : isHex c = true := by
  simp [isHex, hexValue?, h]

theorem toNat_of_isHex {c : Char} (h : isHex c = true) :
    (48 ≤ c.toNat ∧ c.toNat ≤ 57) ∨ (97 ≤ c.toNat ∧ c.toNat ≤ 102) ∨
      (65 ≤ c.toNat ∧ c.toNat ≤ 70) := by
  rw [isHex, hexValue?] at h
  split at h
  · rename_i hd
    exact .inl (Char.isDigit_iff_toNat.1 hd)
  · split at h
    · rename_i hl
      rw [Bool.and_eq_true, decide_eq_true_eq, decide_eq_true_eq] at hl
      exact .inr (.inl hl)
    · split at h
      · rename_i hu
        rw [Bool.and_eq_true, decide_eq_true_eq, decide_eq_true_eq] at hu
        exact .inr (.inr hu)
      · cases h

end EidMap.Text
