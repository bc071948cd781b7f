import EidMap.Proofs.Instant.Calendar
import EidMap.Proofs.Text.Cut
import EidMap.Proofs.Text.Numeral

/-!
# An instant is read back from its text

Each part of the text of an instant is read by the reader of that part, which leaves what follows it;
the parts together are the date and the time of day, and these are the second again.
-/

namespace EidMap.Instant

open Text (digits padZeros)

structure Spells (ds : List Char) (n : Nat) : Prop where
  ne_nil : ds ≠ []
  digits : ∀ c ∈ ds, c.isDigit = true
  value : Text.ofDigits ds = n
  small : n < Number.twoPow 63

def Ends (rest : List Char) : Prop := ∀ c ∈ rest.head?, c.isDigit = false

theorem ends_cons {c : Char} (h : c.isDigit = false) (rest : List Char) : Ends (c :: rest) := by
  intro d hd
  cases hd
  exact h

theorem spells_padZeros (width : Nat) {n : Nat} (h : n < 1000000000) :
    Spells (padZeros width (digits n)) n where
  ne_nil := by
    have := Text.digits_ne_nil n
    simp [padZeros, this]
  digits c hc := Text.isDigit_of_mem_padZeros hc
  value := by rw [Text.ofDigits, Text.foldl_padZeros rfl, ← Text.ofDigits, Text.ofDigits_digits]
  small := Nat.lt_trans h (by decide)

theorem length_padZeros_digits {k n : Nat} (h : n < Nat.pow 10 (k + 1)) :
    (padZeros (k + 1) (digits n)).length = k + 1 :=
  Text.length_padZeros (Text.positional_digits.length_le h)

namespace Spells

variable {ds : List Char} {n : Nat} (h : Spells ds n)

include h

theorem exists_cons : ∃ c cs, ds = c :: cs ∧ c.isDigit = true := by
  obtain ⟨c, cs, rfl⟩ := List.exists_cons_of_ne_nil h.ne_nil
  exact ⟨c, cs, rfl, h.digits c (by simp)⟩

theorem dropBlank_append (rest : List Char) : dropBlank (ds ++ rest) = ds ++ rest := by
  obtain ⟨c, cs, rfl, hc⟩ := h.exists_cons
  refine Text.dropWhile_eq_self fun d hd => ?_
  cases hd
  exact Text.isBlank_of_isDigit hc

theorem number_append {width : Option Nat} (fits : ∀ w ∈ width, ds.length ≤ w) {rest : List Char}
    (ends : Ends rest) : number width (ds ++ rest) = .ok (n, rest) := by
  obtain ⟨c, cs, rfl, hc⟩ := h.exists_cons
  have hall : (c :: cs ++ rest).takeWhile Char.isDigit = c :: cs :=
    Text.takeWhile_append_eq h.digits ends
  rw [List.cons_append] at hall ⊢
  cases width with
  | none =>
    simp only [number, hc, hall, h.value]
    simpa using h.small
  | some w =>
    simp only [number, hc, hall, List.take_of_length_le (fits w rfl), h.value]
    simpa using h.small

end Spells

theorem bounded_two {low high n : Nat} (h0 : low ≤ n) (h1 : n ≤ high) (hn : n < 100)
    {rest : List Char} (ends : Ends rest) : bounded low high (two n ++ rest) = .ok (n, rest) := by
  have hspells : Spells (two n) n := spells_padZeros 2 (by omega)
  have hlength : (two n).length = 2 := length_padZeros_digits (k := 1) hn
  have hfits : ∀ w ∈ some 2, (two n).length ≤ w := by simp [hlength]
  rw [bounded, hspells.dropBlank_append, hspells.number_append hfits ends]
  simp [bind, Except.bind, h0, h1]

theorem year_yearText {y : Int} (h : y.natAbs < 1000000) {rest : List Char} (ends : Ends rest) :
    year (yearText y ++ rest) = .ok (y, rest) := by
  have hrange : (-(Number.twoPow 31 : Int) ≤ y && y < Number.twoPow 31) = true := by
    have hpow : (Number.twoPow 31 : Int) = 2147483648 := by decide
    rw [Bool.and_eq_true, decide_eq_true_eq, decide_eq_true_eq]
    omega
  have hsigned : number none (padZeros 4 (digits y.natAbs) ++ rest) = .ok (y.natAbs, rest) := by
    exact (spells_padZeros 4 (by omega)).number_append (by simp) ends
  have hblank : ∀ c cs, Text.isBlank c = false → dropBlank (c :: cs) = c :: cs := by
    intro c cs hc
    rw [dropBlank, List.dropWhile_cons, hc]
    rfl
  rw [yearText]
  split_ifs with hplain hneg
  · rw [Bool.and_eq_true, decide_eq_true_eq, decide_eq_true_eq] at hplain
    have hspells : Spells (padZeros 4 (digits y.toNat)) y.toNat := spells_padZeros 4 (by omega)
    have hlength : (padZeros 4 (digits y.toNat)).length = 4 :=
      length_padZeros_digits (k := 3) (Nat.lt_succ_of_le (by omega))
    have hfits : ∀ w ∈ some 4, (padZeros 4 (digits y.toNat)).length ≤ w := by simp [hlength]
    have hvalue : (y.toNat : Int) = y := by omega
    have hnumber := hspells.number_append hfits ends
    obtain ⟨c, cs, hcons, hc⟩ := hspells.exists_cons
    rw [year, hspells.dropBlank_append]
    rw [hcons] at hnumber ⊢
    -- A digit is neither of the signs.
    split
    · rename_i heq
      cases heq
      cases hc
    · rename_i heq
      cases heq
      cases hc
    · simp only [hnumber, Except.map, bind, Except.bind, hvalue, hrange, if_true]
  · have hvalue : -(y.natAbs : Int) = y := by omega
    rw [List.cons_append, year, hblank _ _ rfl]
    simp only [hsigned, Except.map, bind, Except.bind, hvalue, hrange, if_true]
  · have hvalue : (y.natAbs : Int) = y := by omega
    rw [List.cons_append, year, hblank _ _ rfl]
    simp only [hsigned, Except.map, bind, Except.bind, hvalue, hrange, if_true]

theorem fraction_places {places n : Nat} (hplaces : places < 9) (h : n < Nat.pow 10 (places + 1))
    {rest : List Char} (ends : Ends rest) :
    fraction ('.' :: padZeros (places + 1) (digits n) ++ rest) =
      .ok (n * Number.tenPow (9 - (places + 1)), rest) := by
  have hsmall : n < 1000000000 :=
    Nat.lt_of_lt_of_le h (Nat.pow_le_pow_right (by omega) (by omega : places + 1 ≤ 9))
  have hlength := length_padZeros_digits h
  have hfits : ∀ w ∈ some 9, (padZeros (places + 1) (digits n)).length ≤ w := by
    intro w hw
    cases hw
    omega
  have hnumber := (spells_padZeros (places + 1) hsmall).number_append hfits ends
  have hrest : rest.dropWhile Char.isDigit = rest := by
    cases rest with
    | nil => rfl
    | cons c rest => rw [List.dropWhile_cons, ends c rfl]; rfl
  rw [List.cons_append, fraction]
  simp only [hnumber, bind, Except.bind, pure, Except.pure, List.length_append, hlength,
    Nat.add_sub_cancel, hrest]

theorem ends_fractionText (nano : Nat) {rest : List Char} (ends : Ends rest) :
    Ends (fractionText nano ++ rest) := by
  rw [fractionText]
  split_ifs
  · exact ends
  all_goals exact ends_cons rfl _

theorem fraction_fractionText {nano : Nat} (h : nano < 1000000000) :
    fraction (fractionText nano ++ ['Z']) = .ok (nano, ['Z']) := by
  have hends : Ends ['Z'] := ends_cons rfl []
  rw [fractionText]
  split_ifs with hzero hmilli hmicro
  · rw [hzero]
    rfl
  · have hplace : nano / 1000000 < Nat.pow 10 3 := Nat.div_lt_of_lt_mul h
    have hvalue : nano / 1000000 * Number.tenPow 6 = nano :=
      Nat.div_mul_cancel (Nat.dvd_of_mod_eq_zero hmilli)
    rw [fraction_places (by decide) hplace hends, hvalue]
  · have hplace : nano / 1000 < Nat.pow 10 6 := Nat.div_lt_of_lt_mul h
    have hvalue : nano / 1000 * Number.tenPow 3 = nano :=
      Nat.div_mul_cancel (Nat.dvd_of_mod_eq_zero hmicro)
    rw [fraction_places (by decide) hplace hends, hvalue]
  · have hvalue : nano * Number.tenPow 0 = nano := Nat.mul_one nano
    rw [fraction_places (by decide) h hends, hvalue]

/-- An instant that the calendar reaches, and that is no leap second. -/
structure Civil (t : Instant) : Prop where
  range : inRange t.second = true
  nano : t.nano < 1000000000

variable {t : Instant}

theorem Civil.year (h : t.Civil) :
    minYear ≤ (Date.ofDays (t.second / 86400)).year ∧
      (Date.ofDays (t.second / 86400)).year ≤ maxYear := by
  have hr := h.range
  rw [inRange, Bool.and_eq_true, decide_eq_true_eq, decide_eq_true_eq] at hr
  exact hr

theorem Civil.ofParts_eq (h : t.Civil) :
    ofParts (Date.ofDays (t.second / 86400)) ((t.second % 86400).toNat / 3600)
      ((t.second % 86400).toNat / 60 % 60) ((t.second % 86400).toNat % 60) t.nano 0 = .ok t := by
  obtain ⟨hlow, hhigh⟩ := h.year
  have hvalid := Date.valid_ofDays (t.second / 86400)
  generalize hs : (t.second % 86400).toNat = s
  have hleap : ¬ s % 60 = 60 := by omega
  have hsecond : (Date.ofDays (t.second / 86400)).days * 86400 +
      ((s / 3600 * 3600 + s / 60 % 60 * 60 + s % 60 : Nat) : Int) - 0 = t.second := by
    rw [Date.days_ofDays]
    omega
  have hdate : ((Date.ofDays (t.second / 86400)).year < minYear ||
      maxYear < (Date.ofDays (t.second / 86400)).year ||
      monthLength (Date.ofDays (t.second / 86400)).year (Date.ofDays (t.second / 86400)).month <
        (Date.ofDays (t.second / 86400)).day) = false := by
    have := hvalid.day.2
    simp only [Bool.or_eq_false_iff, decide_eq_false_iff_not]
    omega
  have hoffset : ¬ (0 : Int).natAbs ≥ 86400 := by decide
  rw [ofParts, hdate]
  simp only [if_neg hleap, if_neg hoffset, hsecond, h.range, if_true]
  rfl

theorem Civil.civilText_eq (h : t.Civil) :
    t.civilText ++ ['Z'] =
      yearText (Date.ofDays (t.second / 86400)).year ++ '-' ::
        (two (Date.ofDays (t.second / 86400)).month ++ '-' ::
          (two (Date.ofDays (t.second / 86400)).day ++ 'T' ::
            (two ((t.second % 86400).toNat / 3600) ++ ':' ::
              (two ((t.second % 86400).toNat / 60 % 60) ++ ':' ::
                (two ((t.second % 86400).toNat % 60) ++ (fractionText t.nano ++ ['Z'])))))) := by
  have hleap : ¬ 1000000000 ≤ t.nano := Nat.not_le.2 h.nano
  simp only [civilText, hleap, if_false, Nat.add_zero, List.append_assoc, List.cons_append]

theorem Civil.read_text (h : t.Civil) : read t.text = .ok t := by
  obtain ⟨hlow, hhigh⟩ := h.year
  obtain ⟨⟨hmonth1, hmonth12⟩, hday1, -⟩ := id (Date.valid_ofDays (t.second / 86400))
  have hday31 := (Date.valid_ofDays (t.second / 86400)).day_le
  have hparts := h.ofParts_eq
  have hdash : ∀ cs, Ends ('-' :: cs) ∧ dropBlank ('-' :: cs) = '-' :: cs :=
    fun cs => ⟨ends_cons rfl cs, rfl⟩
  have hcolon : ∀ cs, Ends (':' :: cs) ∧ dropBlank (':' :: cs) = ':' :: cs :=
    fun cs => ⟨ends_cons rfl cs, rfl⟩
  have hfraction := ends_fractionText t.nano (ends_cons (c := 'Z') rfl [])
  have hyear : (Date.ofDays (t.second / 86400)).year.natAbs < 1000000 := by
    rw [minYear] at hlow
    rw [maxYear] at hhigh
    omega
  rw [read, text, String.toList_ofList, h.civilText_eq]
  generalize hs : (t.second % 86400).toNat = s at hparts ⊢
  have hhour : s / 3600 ≤ 23 := by omega
  have hminute : s / 60 % 60 ≤ 59 := by omega
  have hsecond : s % 60 ≤ 60 := by omega
  generalize Date.ofDays (t.second / 86400) = date at *
  simp only [year_yearText hyear (hdash _).1, bind, Except.bind, (hdash _).2, (hcolon _).2, literal,
    if_true, bounded_two hmonth1 hmonth12 (by omega) (hdash _).1,
    bounded_two hday1 hday31 (by omega) (ends_cons (c := 'T') rfl _),
    bounded_two (Nat.zero_le _) hhour (by omega) (hcolon _).1,
    bounded_two (Nat.zero_le _) hminute (by omega) (hcolon _).1,
    bounded_two (Nat.zero_le _) hsecond (by omega) hfraction, fraction_fractionText h.nano]
  exact hparts

theorem civil_of_ofMillis? {ms : Int} (h : ofMillis? ms = some t) : t.Civil := by
  rw [ofMillis?] at h
  split at h
  · rename_i hrange
    cases h
    exact ⟨hrange, by dsimp only; omega⟩
  · cases h

end EidMap.Instant
