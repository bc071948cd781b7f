import EidMap.Proofs.Text.Cut
import EidMap.Proofs.Text.Numeral
import EidMap.Url.Basic
import Mathlib.Tactic.SplitIfs

/-!
# Encoded text

A text that was encoded holds no character of the set, so encoding it again changes nothing, and a
text without a percent sign is what it decodes to. An encoded segment stands for a dot only where
the segment did.
-/

namespace EidMap.Url

theorem toList_loop_eq (bs : ByteArray) (i : Nat) (r : List UInt8) :
    ByteArray.toList.loop bs i r = r.reverse ++ bs.data.toList.drop i := by
  fun_induction ByteArray.toList.loop bs i r with
  | case1 i r hi ih =>
    have hget : bs.get! i = bs.data.toList[i] := by
      rw [Array.getElem_toList]
      exact getElem!_pos bs.data i hi
    rw [ih, List.drop_eq_getElem_cons hi, hget]
    simp
  | case2 i r hi =>
    have hlen : bs.data.toList.length ≤ i := Nat.le_of_not_lt hi
    rw [List.drop_eq_nil_of_le hlen, List.append_nil]

theorem utf8_eq (c : Char) : utf8 c = String.utf8EncodeChar c := by
  rw [utf8, String.toUTF8_eq_toByteArray, String.toByteArray_singleton, List.utf8Encode_singleton,
    ByteArray.toList, toList_loop_eq, List.toList_data_toByteArray]
  rfl

theorem exists_utf8_eq_cons (c : Char) :
    ∃ b bs, utf8 c = b :: bs ∧ (b.toNat < 128 → b.toNat = c.toNat) := by
  have hc : c.val.toNat = c.toNat := rfl
  rw [utf8_eq, String.utf8EncodeChar, hc]
  split_ifs
  · exact ⟨_, _, rfl, fun _ => by simp; omega⟩
  · refine ⟨_, _, rfl, fun h => absurd h ?_⟩
    simp
    omega
  · refine ⟨_, _, rfl, fun h => absurd h ?_⟩
    simp
    omega
  · refine ⟨_, _, rfl, fun h => absurd h ?_⟩
    simp
    omega

theorem decodeBytes_eq {cs : List Char} (h : '%' ∉ cs) : decodeBytes cs = cs.flatMap utf8 := by
  induction cs with
  | nil => rfl
  | cons c cs ih =>
    have hc : c ≠ '%' := fun hc => h (hc ▸ List.mem_cons_self)
    have hcs : '%' ∉ cs := fun hm => h (List.mem_cons_of_mem c hm)
    unfold decodeBytes
    split
    · exact absurd rfl hc
    · rw [ih hcs, List.flatMap_cons]

theorem utf8Encode_eq (cs : List Char) : cs.utf8Encode = ⟨(cs.flatMap utf8).toArray⟩ := by
  apply ByteArray.ext
  rw [List.utf8Encode, ← Array.toList_inj, List.toList_data_toByteArray]
  exact congrArg (cs.flatMap ·) (funext fun c => (utf8_eq c).symm)

theorem decode?_eq_some {cs : List Char} (h : '%' ∉ cs) : decode? cs = some cs := by
  rw [decode?, decodeBytes_eq h, ← utf8Encode_eq, String.fromUTF8?,
    dif_pos ByteArray.isValidUTF8_utf8Encode, Option.map_some]
  have hof : String.fromUTF8 cs.utf8Encode ByteArray.isValidUTF8_utf8Encode =
      String.ofList cs := rfl
  rw [hof, String.toList_ofList]

def escapes : List Char := "%0123456789ABCDEF".toList

theorem hexDigits_byte (b : UInt8) : Text.padZeros 2 (Text.hexDigits b.toNat) =
    [Text.hexDigit (b.toNat / 16), Text.hexDigit (b.toNat % 16)] := by
  have hb : b.toNat < 256 := b.toNat_lt
  by_cases hn : b.toNat < 16
  · rw [Text.positional_hexDigits.of_lt hn, Nat.div_eq_of_lt hn, Nat.mod_eq_of_lt hn]
    rfl
  · rw [Text.positional_hexDigits.of_ge hn, Text.positional_hexDigits.of_lt (by omega)]
    rfl

theorem percentByte_eq (b : UInt8) : percentByte b =
    ['%', (Text.hexDigit (b.toNat / 16)).toUpper, (Text.hexDigit (b.toNat % 16)).toUpper] := by
  rw [percentByte, hexDigits_byte]
  rfl

theorem toUpper_hexDigit_mem : ∀ n < 16, (Text.hexDigit n).toUpper ∈ escapes := by decide

theorem mem_percentByte {b : UInt8} {c : Char} (h : c ∈ percentByte b) : c ∈ escapes := by
  have hb : b.toNat < 256 := b.toNat_lt
  rw [percentByte_eq] at h
  simp only [List.mem_cons, List.not_mem_nil, or_false] at h
  rcases h with rfl | rfl | rfl
  · decide
  · exact toUpper_hexDigit_mem _ (by omega)
  · exact toUpper_hexDigit_mem _ (by omega)

theorem encode_cons (set : Char → Bool) (c : Char) (cs : List Char) : encode set (c :: cs) =
    (if set c then (utf8 c).flatMap percentByte else [c]) ++ encode set cs := rfl

theorem encode_cons_of_not {set : Char → Bool} {c : Char} (h : set c = false) (cs : List Char) :
    encode set (c :: cs) = c :: encode set cs := by
  rw [encode_cons, h]
  rfl

theorem encode_eq_self {set : Char → Bool} {cs : List Char} (h : ∀ c ∈ cs, set c = false) :
    encode set cs = cs := by
  induction cs with
  | nil => rfl
  | cons c cs ih =>
    obtain ⟨hc, hcs⟩ := List.forall_mem_cons.1 h
    rw [encode_cons_of_not hc, ih hcs]

theorem encode_append (set : Char → Bool) (cs ds : List Char) :
    encode set (cs ++ ds) = encode set cs ++ encode set ds := List.flatMap_append

theorem mem_encode {set : Char → Bool} {cs : List Char} {c : Char} (h : c ∈ encode set cs) :
    c ∈ escapes ∨ c ∈ cs ∧ set c = false := by
  obtain ⟨d, hd, hc⟩ := List.mem_flatMap.1 h
  split at hc
  · obtain ⟨b, -, hb⟩ := List.mem_flatMap.1 hc
    exact .inl (mem_percentByte hb)
  · rename_i hset
    cases List.mem_singleton.1 hc
    exact .inr ⟨hd, Bool.eq_false_iff.2 hset⟩

theorem encode_ne_nil (set : Char → Bool) {cs : List Char} (h : cs ≠ []) : encode set cs ≠ [] := by
  obtain ⟨c, ds, rfl⟩ := List.exists_cons_of_ne_nil h
  obtain ⟨b, bs, hbytes, -⟩ := exists_utf8_eq_cons c
  rw [encode_cons, hbytes]
  cases set c <;> simp [percentByte_eq]

/-- The characters of a set that are encoded, when none of them is written in an escape. -/
def KeepsEscapes (set : Char → Bool) : Prop := ∀ c ∈ escapes, set c = false

theorem keepsEscapes_fragmentSet : KeepsEscapes fragmentSet := Text.forall_of_all (by decide)

theorem keepsEscapes_specialQuerySet : KeepsEscapes specialQuerySet :=
  Text.forall_of_all (by decide)

theorem keepsEscapes_pathSet : KeepsEscapes pathSet := Text.forall_of_all (by decide)

theorem keepsEscapes_userinfoSet : KeepsEscapes userinfoSet := Text.forall_of_all (by decide)

namespace KeepsEscapes

variable {set : Char → Bool}

theorem of_mem_encode (h : KeepsEscapes set) {cs : List Char} :
    ∀ c ∈ encode set cs, set c = false :=
  fun c hc => (mem_encode hc).elim (h c) And.right

end KeepsEscapes

theorem isEdge_of_fragmentSet {c : Char} (h : fragmentSet c = false) : isEdge c = false := by
  simp only [fragmentSet, controlSet, Bool.or_eq_false_iff, decide_eq_false_iff_not] at h
  refine decide_eq_false fun hedge => ?_
  have hspace : c.toNat = ' '.toNat := Nat.le_antisymm hedge (Nat.le_of_not_lt h.1.1)
  rw [Char.toNat_inj.1 hspace] at h
  exact absurd h.2 (by decide)

theorem isEdge_of_specialQuerySet {c : Char} (h : specialQuerySet c = false) :
    isEdge c = false := by
  simp only [specialQuerySet, querySet, controlSet, Bool.or_eq_false_iff,
    decide_eq_false_iff_not] at h
  refine decide_eq_false fun hedge => ?_
  have hspace : c.toNat = ' '.toNat := Nat.le_antisymm hedge (Nat.le_of_not_lt h.1.1.1)
  rw [Char.toNat_inj.1 hspace] at h
  exact absurd h.1.2 (by decide)

theorem fragmentSet_of_pathSet {c : Char} (h : pathSet c = false) : fragmentSet c = false :=
  (Bool.or_eq_false_iff.1 h).1

theorem pathSet_of_userinfoSet {c : Char} (h : userinfoSet c = false) : pathSet c = false :=
  (Bool.or_eq_false_iff.1 h).1

theorem encode_eq_cons {set : Char → Bool} {cs t : List Char} {c : Char} (hc : c ≠ '%')
    (h : encode set cs = c :: t) : ∃ ds, cs = c :: ds ∧ encode set ds = t := by
  cases cs with
  | nil => cases h
  | cons d ds =>
    obtain ⟨b, bs, hbytes, -⟩ := exists_utf8_eq_cons d
    rw [encode_cons, hbytes, List.flatMap_cons, percentByte_eq] at h
    split at h
    · cases h
      exact absurd rfl hc
    · cases h
      exact ⟨ds, rfl, rfl⟩

theorem eq_of_hexDigit : ∀ n < 16, ((Text.hexDigit n).toUpper = '2' → n = 2) ∧
    ((Text.hexDigit n).toUpper = 'E' → n = 14) ∧ (Text.hexDigit n).toUpper ≠ 'e' := by
  decide

theorem encode_eq_dot {set : Char → Bool} (dot : set '.' = false) {cs t : List Char} {c : Char}
    (he : c = 'e' ∨ c = 'E') (h : encode set cs = '%' :: '2' :: c :: t) :
    ∃ ds, cs = '%' :: '2' :: c :: ds ∧ encode set ds = t := by
  cases cs with
  | nil => cases h
  | cons d ds =>
    cases hd : set d with
    | false =>
      rw [encode_cons_of_not hd] at h
      have hc : c ≠ '%' := by rcases he with rfl | rfl <;> decide
      obtain ⟨rfl, htwo⟩ := List.cons.inj h
      obtain ⟨ds, rfl, hrest⟩ := encode_eq_cons (by decide) htwo
      obtain ⟨ds, rfl, ht⟩ := encode_eq_cons hc hrest
      exact ⟨ds, rfl, ht⟩
    | true =>
      obtain ⟨b, bs, hbytes, hlow⟩ := exists_utf8_eq_cons d
      have hb : b.toNat < 256 := b.toNat_lt
      rw [encode_cons, hd, if_pos rfl, hbytes, List.flatMap_cons, percentByte_eq] at h
      simp only [List.cons_append, List.cons.injEq] at h
      obtain ⟨-, htwo, hlast, -⟩ := h
      have hhigh := (eq_of_hexDigit _ (by omega)).1 htwo
      obtain ⟨-, hE, hne⟩ := eq_of_hexDigit (b.toNat % 16) (by omega)
      have hlow' : b.toNat % 16 = 14 := by
        rcases he with rfl | rfl
        · exact absurd hlast hne
        · exact hE hlast
      have hdot : d.toNat = '.'.toNat := by
        rw [← hlow (by omega)]
        show b.toNat = 46
        omega
      rw [Char.toNat_inj.1 hdot, dot] at hd
      cases hd

theorem dots_eq_self {cs : List Char} (dot : ∀ t, cs ≠ '.' :: t)
    (escape : ∀ c t, cs = '%' :: '2' :: c :: t → ¬(c = 'e' ∨ c = 'E')) : dots cs = cs := by
  unfold dots
  split
  · rename_i c rest
    refine if_neg ?_
    simpa using escape c rest rfl
  · rename_i rest
    exact absurd rfl (dot rest)
  · rfl

theorem dots_encode (cs : List Char) : dots (encode pathSet cs) = encode pathSet (dots cs) := by
  fun_induction dots cs with
  | case1 c rest he ih =>
    have hc : pathSet c = false := by
      simp only [Bool.or_eq_true, decide_eq_true_eq] at he
      rcases he with rfl | rfl <;> rfl
    rw [encode_cons_of_not rfl, encode_cons_of_not rfl, encode_cons_of_not hc, dots, if_pos he, ih,
      encode_cons_of_not rfl]
  | case2 c rest he =>
    refine dots_eq_self (fun t h => ?_) fun d t hd h => ?_
    · obtain ⟨_, ht, -⟩ := encode_eq_cons (by decide) h
      cases ht
    · obtain ⟨_, ht, -⟩ := encode_eq_dot rfl h hd
      cases ht
      exact he (by simpa using h)
  | case3 rest ih => rw [encode_cons_of_not rfl, dots, ih, encode_cons_of_not rfl]
  | case4 cs hescape hdot =>
    refine dots_eq_self (fun t h => ?_) fun d t hd h => ?_
    · obtain ⟨_, ht, -⟩ := encode_eq_cons (by decide) h
      exact hdot _ ht
    · obtain ⟨_, ht, -⟩ := encode_eq_dot rfl h hd
      exact hescape _ _ ht

theorem encode_eq_dots {cs : List Char} {n : Nat}
    (h : encode pathSet cs = List.replicate n '.') : cs = List.replicate n '.' := by
  induction n generalizing cs with
  | zero => exact Classical.byContradiction fun hne => encode_ne_nil pathSet hne h
  | succ n ih =>
    obtain ⟨ds, rfl, hds⟩ := encode_eq_cons (by decide) h
    rw [ih hds]
    rfl

end EidMap.Url
