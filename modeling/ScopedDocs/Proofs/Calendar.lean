import Mathlib.Algebra.Ring.Nat
import ScopedDocs.Instant.Basic
/-!
# The calendar — days and dates

Days and dates are two names of one thing: the date of a day exists
(`Date.isReal_ofDay`), and it counts back to that day (`Date.toDay_ofDay`). Both come
from what splitting a day of a year by the lengths of months leaves
(`Date.splitMonths_spec`). The days that instants reach lie in the years that dates
may have (`Date.year_ofDay_mem`).
-/


namespace ScopedDocs

namespace Date

/-- **Splitting by months.** A day of the year falls in a month that is long enough for
it, and behind the months before. -/
theorem splitMonths_spec {lengths : List Nat} {rest : Nat} (h : rest < lengths.sum) :
    ∃ length, lengths[(splitMonths lengths rest).1]? = some length ∧
      (splitMonths lengths rest).2 < length ∧
      (lengths.take (splitMonths lengths rest).1).sum + (splitMonths lengths rest).2 = rest := by
  induction lengths generalizing rest with
  | nil => simp at h
  | cons length lengths ih =>
    rw [List.sum_cons] at h
    by_cases hshort : rest < length
    · exact ⟨length, by simp [splitMonths, hshort]⟩
    · have hrest : rest - length < lengths.sum := by omega
      obtain ⟨found, hget, hlt, hsum⟩ := ih hrest
      refine ⟨found, ?_⟩
      simp only [splitMonths, if_neg hshort, List.getElem?_cons_succ, List.take_succ_cons,
        List.sum_cons]
      exact ⟨hget, hlt, by omega⟩

/-- The months of a year fill it up to the first day of the next one. -/
theorem sum_monthLengths (year : Int) :
    ((monthLengths year).sum : Int) = daysBeforeYear (year + 1) - daysBeforeYear year := by
  have hleap : isLeapYear year = true ↔ year % 4 = 0 ∧ (year % 100 ≠ 0 ∨ year % 400 = 0) := by
    simp [isLeapYear]
  unfold monthLengths daysBeforeYear
  by_cases h : isLeapYear year = true
  · have := hleap.mp h
    simp only [h, ↓reduceIte, List.sum_cons, List.sum_nil]
    omega
  · have := mt hleap.mpr h
    simp only [h, Bool.false_eq_true, ↓reduceIte, List.sum_cons, List.sum_nil]
    omega

/-- A later year starts no earlier. -/
theorem daysBeforeYear_mono {year later : Int} (h : year ≤ later) :
    daysBeforeYear year ≤ daysBeforeYear later := by
  rcases Int.lt_or_eq_of_le h with h | rfl
  · unfold daysBeforeYear
    omega
  · exact Int.le_refl _

/-- No month has more than 31 days. -/
theorem le_of_mem_monthLengths {year : Int} {length : Nat} (h : length ∈ monthLengths year) :
    length ≤ 31 := by
  unfold monthLengths at h
  simp only [List.mem_cons, List.not_mem_nil, or_false] at h
  split at h <;> omega

section

variable (day : Int)

/-- The year of a day starts no later, and the next one starts behind it. -/
theorem year_ofDay :
    daysBeforeYear (ofDay day).year ≤ day + epochDay ∧
      day + epochDay < daysBeforeYear ((ofDay day).year + 1) :=
  daysBeforeYear_yearOf (day + epochDay)

/-- Where a day falls in its year: the months before, and the days before in the month. -/
theorem ofDay_spec :
    ∃ length, (monthLengths (ofDay day).year)[(ofDay day).month - 1]? = some length ∧
      1 ≤ (ofDay day).month ∧ 1 ≤ (ofDay day).day ∧ (ofDay day).day ≤ length ∧
      daysBeforeYear (ofDay day).year +
        ((monthLengths (ofDay day).year).take ((ofDay day).month - 1)).sum +
        ((ofDay day).day - 1 : Nat) = day + epochDay := by
  have hyear := year_ofDay day
  have hsum := sum_monthLengths (ofDay day).year
  have hrest : (day + epochDay - daysBeforeYear (ofDay day).year).toNat <
      (monthLengths (ofDay day).year).sum := by omega
  have hmonth : (ofDay day).month = (splitMonths (monthLengths (ofDay day).year)
    (day + epochDay - daysBeforeYear (ofDay day).year).toNat).1 + 1 := by simp only [ofDay]
  have hday : (ofDay day).day = (splitMonths (monthLengths (ofDay day).year)
    (day + epochDay - daysBeforeYear (ofDay day).year).toNat).2 + 1 := by simp only [ofDay]
  obtain ⟨length, hget, hlt, hsplit⟩ := splitMonths_spec hrest
  rw [hmonth, hday, Nat.add_sub_cancel, Nat.add_sub_cancel]
  exact ⟨length, hget, by omega, by omega, by omega, by omega⟩

/-- **The date of a day exists.** -/
theorem isReal_ofDay : (ofDay day).isReal = true := by
  obtain ⟨length, hget, hmonth, hday, hle, -⟩ := ofDay_spec day
  simp [isReal, hget, hmonth, hday, hle]

/-- **The date of a day counts back to that day.** -/
theorem toDay_ofDay : (ofDay day).toDay = day := by
  obtain ⟨length, -, -, -, -, hsum⟩ := ofDay_spec day
  simp only [toDay, ← List.sum_eq_foldl]
  omega

/-- Two digits are enough for a month. -/
theorem month_ofDay_le : (ofDay day).month ≤ 12 := by
  obtain ⟨length, hget, -⟩ := ofDay_spec day
  obtain ⟨hlt, -⟩ := List.getElem?_eq_some_iff.mp hget
  have htwelve : (monthLengths (ofDay day).year).length = 12 := rfl
  omega

/-- Two digits are enough for a day of a month. -/
theorem day_ofDay_le : (ofDay day).day ≤ 31 := by
  obtain ⟨length, hget, -, -, hle, -⟩ := ofDay_spec day
  exact Nat.le_trans hle (le_of_mem_monthLengths (List.mem_of_getElem? hget))

end

/-- **The days that instants reach** lie in the years that dates may have. -/
theorem year_ofDay_mem {seconds : Int} (hfirst : Instant.firstSecond ≤ seconds)
    (hlast : seconds ≤ Instant.lastSecond) :
    Instant.firstYear ≤ (ofDay (seconds / Instant.secondsPerDay)).year ∧
      (ofDay (seconds / Instant.secondsPerDay)).year ≤ Instant.lastYear := by
  obtain ⟨hstart, hend⟩ := year_ofDay (seconds / Instant.secondsPerDay)
  generalize (ofDay (seconds / Instant.secondsPerDay)).year = year at hstart hend
  have hday : daysBeforeYear Instant.firstYear ≤ seconds / Instant.secondsPerDay + epochDay ∧
      seconds / Instant.secondsPerDay + epochDay < daysBeforeYear (Instant.lastYear + 1) := by
    simp only [daysBeforeYear, epochDay, Instant.secondsPerDay, Instant.firstSecond,
      Instant.lastSecond, Instant.firstYear, Instant.lastYear] at *
    omega
  refine ⟨Int.not_lt.mp fun hbefore => ?_, Int.not_lt.mp fun hafter => ?_⟩
  · have := daysBeforeYear_mono (Int.add_one_le_of_lt hbefore)
    omega
  · have := daysBeforeYear_mono (Int.add_one_le_of_lt hafter)
    omega

end Date

end ScopedDocs
