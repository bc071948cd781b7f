import EidMap.Instant
import Mathlib.Tactic.IntervalCases
import Mathlib.Tactic.SplitIfs

/-!
# The calendar counts days

A count of days is taken apart into a year that begins in March and a day of it, with no search. The
division is right because a day of an era has one place among the centuries, the groups of four years
and the years; from there, the date of a count of days has that count again, and is a date that there
is.
-/

namespace EidMap.Instant

namespace Date

/-- A day of an era of 400 years: its century, its group of four years there, its year in the group
and the day of that year. Only the last year of a group has a day 365, and that of a century's last
group only at the end of the era. -/
structure Places (e c q k d : Int) : Prop where
  day : e = 36524 * c + 1461 * q + 365 * k + d
  century : 0 ≤ c ∧ c ≤ 3
  group : 0 ≤ q ∧ q ≤ 24
  year : 0 ≤ k ∧ k ≤ 3
  nonneg : 0 ≤ d
  le : d ≤ 364 ∨ d = 365 ∧ k = 3 ∧ (q = 24 → c = 3)

theorem exists_places {e : Int} (h0 : 0 ≤ e) (h1 : e ≤ 146096) :
    ∃ c q k d, Places e c q k d := by
  obtain ⟨c, hc0, hc3, hr0, hr⟩ : ∃ c : Int, 0 ≤ c ∧ c ≤ 3 ∧ 0 ≤ e - 36524 * c ∧
      (e - 36524 * c < 36524 ∨ c = 3 ∧ e - 36524 * c = 36524) := by
    by_cases he : e = 146096
    · exact ⟨3, by omega⟩
    · exact ⟨e / 36524, by omega⟩
  generalize hre : e - 36524 * c = r at hr0 hr
  obtain ⟨k, hk0, hk3, hd0, hd⟩ : ∃ k : Int, 0 ≤ k ∧ k ≤ 3 ∧ 0 ≤ r % 1461 - 365 * k ∧
      (r % 1461 - 365 * k < 365 ∨ k = 3 ∧ r % 1461 - 365 * k = 365) := by
    by_cases hs : r % 1461 = 1460
    · exact ⟨3, by omega⟩
    · exact ⟨r % 1461 / 365, by omega⟩
  refine ⟨c, r / 1461, k, r % 1461 - 365 * k, ?_, ⟨hc0, hc3⟩, ?_, ⟨hk0, hk3⟩, hd0, ?_⟩ <;> omega

def yearOfEra (e : Int) : Int := (e - e / 1460 + e / 36524 - e / 146096) / 365

def dayOfYear (e : Int) : Int :=
  e - (365 * yearOfEra e + yearOfEra e / 4 - yearOfEra e / 100)

namespace Places

variable {e c q k d : Int} (h : Places e c q k d)

include h

theorem yearOfEra_eq : yearOfEra e = 100 * c + 4 * q + k := by
  obtain ⟨hday, hc, hq, hk, hd, hle⟩ := h
  -- Dividing by 1460 may run one group ahead, but does so on each day 365.
  have hgroup : e / 1460 = 25 * c + q ∨ e / 1460 = 25 * c + q + 1 ∧ d ≠ 0 := by omega
  have hlast : d = 365 → e / 1460 = 25 * c + q + 1 := by omega
  have hcentury : e / 36524 = c ∧ e / 146096 = 0 ∨ e / 36524 - e / 146096 = c := by omega
  rw [yearOfEra]
  omega

theorem dayOfYear_eq : dayOfYear e = d := by
  obtain ⟨hday, hc, hq, hk, hd, hle⟩ := id h
  rw [dayOfYear, h.yearOfEra_eq]
  omega

theorem isLeap_of_eq (hd : d = 365) (era : Int) :
    isLeap (yearOfEra e + era * 400 + 1) = true := by
  obtain ⟨-, hc, hq, hk, -, hle⟩ := id h
  obtain ⟨hlast, hcentury⟩ : k = 3 ∧ (q = 24 → c = 3) := by omega
  rw [h.yearOfEra_eq, isLeap, Bool.and_eq_true, Bool.or_eq_true, decide_eq_true_eq,
    decide_eq_true_eq, decide_eq_true_eq]
  omega

end Places

def ofYearDay (year day : Int) : Date :=
  let month := (5 * day + 2) / 153
  let m := if month < 10 then month + 3 else month - 9
  ⟨year + (if m ≤ 2 then 1 else 0), m.toNat, (day - (153 * month + 2) / 5 + 1).toNat⟩

structure Valid (d : Date) : Prop where
  month : 1 ≤ d.month ∧ d.month ≤ 12
  day : 1 ≤ d.day ∧ d.day ≤ monthLength d.year d.month

theorem monthLength_eq {month : Int} (h0 : 0 ≤ month) (h1 : month ≤ 10) (y : Int) :
    monthLength y (if month < 10 then month + 3 else month - 9).toNat =
      (153 * (month + 1) + 2) / 5 - (153 * month + 2) / 5 := by
  interval_cases month <;> rfl

section

variable {year day : Int} (h0 : 0 ≤ day) (h1 : day ≤ 365)

include h0 h1

theorem days_ofYearDay : (ofYearDay year day).days =
    year / 400 * 146097 + ((year - year / 400 * 400) * 365 + (year - year / 400 * 400) / 4 -
      (year - year / 400 * 400) / 100 + day) - 719468 := by
  generalize hmonth : (5 * day + 2) / 153 = month
  have hm : 0 ≤ month ∧ month ≤ 11 := by omega
  have hfirst : 0 ≤ day - (153 * month + 2) / 5 := by omega
  simp only [ofYearDay, days, hmonth]
  by_cases hlate : month < 10
  · have hplace : ((((month + 3).toNat + 9) % 12 : Nat) : Int) = month := by omega
    rw [if_pos hlate, hplace]
    split_ifs <;> omega
  · have hplace : ((((month - 9).toNat + 9) % 12 : Nat) : Int) = month := by omega
    rw [if_neg hlate, hplace]
    split_ifs <;> omega

theorem valid_ofYearDay (leap : day = 365 → isLeap (year + 1) = true) :
    (ofYearDay year day).Valid := by
  generalize hmonth : (5 * day + 2) / 153 = month
  obtain ⟨hm0, hm11⟩ : 0 ≤ month ∧ month ≤ 11 := by omega
  simp only [ofYearDay, hmonth]
  refine ⟨?_, ?_, ?_⟩
  · dsimp only
    split_ifs <;> omega
  · dsimp only
    omega
  · by_cases hlast : month = 11
    · subst hlast
      have hfebruary : (if (11 : Int) < 10 then (11 : Int) + 3 else 11 - 9) = 2 := by decide
      have hlength : monthLength (year + 1) (2 : Int).toNat =
        if isLeap (year + 1) then 29 else 28 := rfl
      simp only [hfebruary, Int.le_refl, if_true, hlength]
      by_cases hleap : day = 365
      · rw [leap hleap, if_pos rfl]
        omega
      · split_ifs <;> omega
    · have hlength := monthLength_eq hm0 (by omega)
        (year + if (if month < 10 then month + 3 else month - 9) ≤ 2 then 1 else 0)
      dsimp only
      omega

end

theorem ofDays_eq (n : Int) :
    let z := n + 719468
    let e := z - z / 146097 * 146097
    ofDays n = ofYearDay (yearOfEra e + z / 146097 * 400) (dayOfYear e) := rfl

theorem days_ofDays (n : Int) : (ofDays n).days = n := by
  rw [ofDays_eq]
  generalize hz : n + 719468 = z
  generalize hera : z / 146097 = era
  generalize he : z - era * 146097 = e
  obtain ⟨c, q, k, d, h⟩ := exists_places (e := e) (by omega) (by omega)
  obtain ⟨hsum, hc, hq, hk, hd, hle⟩ := id h
  rw [h.yearOfEra_eq, h.dayOfYear_eq, days_ofYearDay hd (by omega)]
  omega

theorem valid_ofDays (n : Int) : (ofDays n).Valid := by
  rw [ofDays_eq]
  generalize hz : n + 719468 = z
  generalize hera : z / 146097 = era
  generalize he : z - era * 146097 = e
  obtain ⟨c, q, k, d, h⟩ := exists_places (e := e) (by omega) (by omega)
  have hleap := fun hd => h.isLeap_of_eq hd era
  obtain ⟨hsum, hc, hq, hk, hd, hle⟩ := id h
  rw [h.dayOfYear_eq]
  exact valid_ofYearDay hd (by omega) hleap

theorem Valid.day_le {d : Date} (h : d.Valid) : d.day ≤ 31 := by
  refine Nat.le_trans h.day.2 ?_
  unfold monthLength
  split
  · split <;> decide
  all_goals decide

end Date

end EidMap.Instant
