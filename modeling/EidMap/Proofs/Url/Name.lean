import EidMap.Proofs.Text.Cut
import EidMap.Url.Domain
import Mathlib.Tactic.SplitIfs

/-!
# The ASCII form of a name

The ASCII form of a name consists of characters that are their own lower case, also where labels
were put into the ASCII-compatible encoding. It is its own ASCII form.
-/

namespace EidMap.Url

/-- An ASCII character that a name keeps when it is put into lower case. -/
def Settled (c : Char) : Prop := c.toNat < 128 ∧ lowerChar c = c

instance : DecidablePred Settled := fun c =>
  inferInstanceAs (Decidable (c.toNat < 128 ∧ lowerChar c = c))

theorem forall_of_ofNat {p : Char → Prop} {bound : Nat} (h : ∀ n < bound, p (Char.ofNat n))
    {c : Char} (hc : c.toNat < bound) : p c := by
  have hp := h c.toNat hc
  rwa [Char.ofNat_toNat] at hp

theorem settled_toLower {c : Char} (h : c.toNat < 128) : Settled c.toLower :=
  forall_of_ofNat (p := fun c => Settled c.toLower) (by decide) h

theorem toNat_ofNat_of_lt {n : Nat} (h : n < 0xD800) : (Char.ofNat n).toNat = n := by
  have hvalid : n.isValidChar := .inl h
  rw [Char.ofNat, dif_pos hvalid]
  rfl

theorem settled_lowerChar {c : Char} (h : (lowerChar c).toNat < 128) : Settled (lowerChar c) := by
  have high : ∀ {n}, 128 ≤ n → n < 0xD800 → (Char.ofNat n).toNat < 128 →
      Settled (Char.ofNat n) := by
    intro n hn hsmall hlow
    rw [toNat_ofNat_of_lt hsmall] at hlow
    omega
  unfold lowerChar at h ⊢
  dsimp only at h ⊢
  simp only [Bool.or_eq_true, Bool.and_eq_true, decide_eq_true_eq] at h ⊢
  split_ifs at h ⊢ with hascii h₁ h₂ h₃ h₄ hwide
  · exact settled_toLower hascii
  · exact high (by omega) (by omega) h
  · exact high (by omega) (by omega) h
  · exact high (by omega) (by omega) h
  · exact high (by omega) (by omega) h
  · apply settled_toLower
    rw [toNat_ofNat_of_lt (by omega)]
    omega
  · decide
  · exact absurd h hascii

namespace Punycode

theorem settled_digitChar : ∀ d < 36, Settled (digitChar d) := by decide

theorem threshold_le (k bias : Nat) : threshold k bias ≤ 26 := by
  unfold threshold
  split_ifs <;> omega

theorem settled_of_mem_differenceDigits {bias k q : Nat} {c : Char}
    (h : c ∈ differenceDigits bias k q) : Settled c := by
  induction q using Nat.strongRecOn generalizing k with
  | ind q ih =>
    have hpos := threshold_pos k bias
    have hle := threshold_le k bias
    rw [differenceDigits] at h
    split at h
    · rename_i hq
      cases List.mem_singleton.1 h
      exact settled_digitChar q (by omega)
    · rcases List.mem_cons.1 h with rfl | h
      · have hmod := Nat.mod_lt (q - threshold k bias) (y := 36 - threshold k bias) (by omega)
        exact settled_digitChar _ (by omega)
      · have hdiv := Nat.div_le_self (q - threshold k bias) (36 - threshold k bias)
        exact ih _ (by omega) h

def State.OutSettled (s : State) : Prop := ∀ c ∈ s.out, Settled c

theorem outSettled_visit {s : State} (h : s.OutSettled) (basic point : Nat) (c : Char) :
    (visit basic point s c).OutSettled := by
  unfold visit
  split_ifs
  · exact h
  · intro d hd
    rcases List.mem_append.1 hd with hd | hd
    · exact h d hd
    · exact settled_of_mem_differenceDigits hd
  · exact h

theorem outSettled_foldl_visit {s : State} (h : s.OutSettled) (basic point : Nat)
    (cs : List Char) : (cs.foldl (visit basic point) s).OutSettled := by
  induction cs generalizing s with
  | nil => exact h
  | cons c cs ih => exact ih (outSettled_visit h basic point c)

theorem outSettled_foldl {f : State × Nat → Nat → State × Nat}
    (step : ∀ s p, s.1.OutSettled → (f s p).1.OutSettled) {s : State × Nat} (h : s.1.OutSettled)
    (ps : List Nat) : (ps.foldl f s).1.OutSettled := by
  induction ps generalizing s with
  | nil => exact h
  | cons p ps ih => exact ih (step s p h)

theorem mem_encode {cs : List Char} {c : Char} (h : c ∈ encode cs) :
    Settled c ∨ c ∈ cs ∧ c.toNat < 128 := by
  rw [encode] at h
  dsimp only at h
  rw [List.mem_append, List.mem_append] at h
  rcases h with (h | h) | h
  · obtain ⟨hc, hlow⟩ := List.mem_filter.1 h
    exact .inr ⟨hc, of_decide_eq_true hlow⟩
  · split at h
    · cases h
    · cases List.mem_singleton.1 h
      exact .inl (by decide)
  · refine .inl (outSettled_foldl (fun s p hs => ?_) (fun d hd => absurd hd List.not_mem_nil) _ c h)
    -- the step moves the state to the next code point, and then past the characters
    exact outSettled_foldl_visit
      (s := { s.1 with delta := s.1.delta + (p - s.2) * (s.1.handled + 1) }) hs _ p cs

end Punycode

theorem mem_asciiLabel {cs : List Char} (hcs : ∀ c ∈ cs, c.toNat < 128 → Settled c) {c : Char}
    (h : c ∈ asciiLabel cs) : Settled c := by
  rw [asciiLabel] at h
  split at h
  · rename_i hall
    exact hcs c h (of_decide_eq_true (List.all_eq_true.1 hall c h))
  · have hprefix : ∀ d ∈ ['x', 'n', '-', '-'], Settled d := Text.forall_of_all (by decide)
    rcases List.mem_append.1 (show c ∈ ['x', 'n', '-', '-'] ++ Punycode.encode cs from h) with h | h
    · exact hprefix c h
    · rcases Punycode.mem_encode h with h | ⟨h, hlow⟩
      · exact h
      · exact hcs c h hlow

structure IsAsciiName (name : List Char) : Prop where
  settled : ∀ c ∈ name, Settled c
  allowed : ∀ c ∈ name, isForbidden c = false

theorem isAsciiName_of_asciiName? {cs name : List Char} (h : asciiName? cs = some name) :
    IsAsciiName name := by
  rw [asciiName?] at h
  split at h
  · cases h
  · rename_i hallowed
    cases h
    refine ⟨fun c hc => ?_, fun c hc => ?_⟩
    · rcases Text.mem_intercalate hc with rfl | ⟨p, hp, hc⟩
      · decide
      · obtain ⟨label, hlabel, rfl⟩ := List.mem_map.1 hp
        refine mem_asciiLabel (fun d hd hlow => ?_) hc
        obtain ⟨e, -, rfl⟩ := List.mem_map.1 ((Text.of_mem_pieces hlabel).2 d hd)
        exact settled_lowerChar hlow
    · rw [List.any_eq_true] at hallowed
      exact Bool.eq_false_iff.2 fun hforbidden => hallowed ⟨c, hc, hforbidden⟩

theorem IsAsciiName.asciiName?_eq {name : List Char} (h : IsAsciiName name) :
    asciiName? name = some name := by
  have hfilter : name.filter (fun c => c.toNat ≠ 0xAD && c.toNat ≠ 0x200B) = name := by
    refine List.filter_eq_self.2 fun c hc => ?_
    have hlow := (h.settled c hc).1
    simp only [Bool.and_eq_true, decide_eq_true_eq]
    omega
  have hlower : name.map lowerChar = name :=
    (List.map_congr_left fun c hc => (h.settled c hc).2).trans (List.map_id name)
  have hlabels : (Text.pieces '.' name).map asciiLabel = Text.pieces '.' name := by
    refine (List.map_congr_left fun p hp => ?_).trans (List.map_id _)
    refine if_pos (List.all_eq_true.2 fun c hc => ?_)
    exact decide_eq_true (h.settled c ((Text.of_mem_pieces hp).2 c hc)).1
  have hallowed : name.any isForbidden = false :=
    List.any_eq_false.2 fun c hc => Bool.eq_false_iff.1 (h.allowed c hc)
  rw [asciiName?, hfilter, hlower, hlabels, Text.pieces_eq_splitOn, List.intercalate_splitOn,
    hallowed]
  rfl

end EidMap.Url
