import Mathlib.Algebra.Order.Ring.Int
import ScopedDocs.Double
/-!
# Doubles — rounding keeps the order

Rounding never turns two magnitudes round (`Double.roundUnits_mono`). Magnitudes with
the same number of bits have the same spacing, and there it is a fact of rounding to
whole numbers (`Double.roundHalfEven_mono`); between magnitudes with different numbers of
bits stands a power of two, which rounding keeps (`Double.roundUnits_le_two_pow`,
`Double.two_pow_le_roundUnits`). What is a multiple of its spacing is kept as it is
(`Double.roundUnits_of_dvd`).

For whole numbers this gives the range in which they are exact (`Double.natUnits_of_le`)
and those that a double takes for `2⁶³`, the first number beyond the signed integers of 64
bits (`Double.top_le_natUnits`, `Double.natUnits_le_top`). From there up to `2⁶⁴` only
multiples of 2048 are doubles (`Double.natUnits_of_top`).
-/


namespace ScopedDocs

namespace Double

section

variable {num num' den q : Nat}

/-- A ratio is rounded down if its fraction is at most a half, and up if it is at least one. -/
theorem roundHalfEven_cases (num den : Nat) :
    (roundHalfEven num den = num / den ∧ 2 * (num % den) ≤ den) ∨
      (roundHalfEven num den = num / den + 1 ∧ den ≤ 2 * (num % den)) := by
  unfold roundHalfEven
  dsimp only
  split
  · next h => exact .inl ⟨rfl, Nat.le_of_lt h⟩
  · split
    · next h => exact .inr ⟨rfl, Nat.le_of_lt h⟩
    · rcases Nat.mod_two_eq_zero_or_one (num / den) with heven | hodd
      · exact .inl ⟨by omega, by omega⟩
      · exact .inr ⟨by omega, by omega⟩

/-- A ratio up to a whole number is rounded to no more than that. -/
theorem roundHalfEven_le (hden : 0 < den) (h : num ≤ q * den) : roundHalfEven num den ≤ q := by
  have hdiv := Nat.div_add_mod num den
  rcases roundHalfEven_cases num den with ⟨heq, -⟩ | ⟨heq, hhalf⟩
  · rw [heq]
    exact Nat.div_le_of_le_mul (by rwa [Nat.mul_comm])
  · -- there is a fraction, so that the whole part lies below
    rw [heq]
    exact Nat.div_lt_of_lt_mul (by
      rcases Nat.lt_or_eq_of_le h with hlt | rfl
      · rwa [Nat.mul_comm]
      · rw [Nat.mul_mod_left] at hhalf
        omega)

/-- A ratio from a whole number on is rounded to no less than that. -/
theorem le_roundHalfEven (hden : 0 < den) (h : q * den ≤ num) : q ≤ roundHalfEven num den := by
  have hq : q ≤ num / den := (Nat.le_div_iff_mul_le hden).mpr h
  rcases roundHalfEven_cases num den with ⟨heq, -⟩ | ⟨heq, -⟩ <;> omega

/-- **Rounding to whole numbers keeps the order.** -/
theorem roundHalfEven_mono (hden : 0 < den) (h : num ≤ num') :
    roundHalfEven num den ≤ roundHalfEven num' den := by
  rcases Nat.lt_or_eq_of_le (Nat.div_le_div_right (c := den) h) with hlt | heq
  · calc
      roundHalfEven num den ≤ num / den + 1 := by
        refine roundHalfEven_le hden ?_
        rw [Nat.mul_comm]
        exact Nat.le_of_lt (Nat.lt_mul_div_succ num hden)
      _ ≤ num' / den := hlt
      _ ≤ roundHalfEven num' den := le_roundHalfEven hden (Nat.div_mul_le_self num' den)
  · have hnum := Nat.div_add_mod num den
    have hnum' := Nat.div_add_mod num' den
    rw [heq] at hnum
    rcases roundHalfEven_cases num den with ⟨hdown, -⟩ | ⟨hup, hhalf⟩
    · rw [hdown, heq]
      exact le_roundHalfEven hden (Nat.div_mul_le_self num' den)
    · rcases roundHalfEven_cases num' den with ⟨hdown', hhalf'⟩ | ⟨hup', -⟩
      · -- both are halves of one and the same whole part
        obtain rfl : num = num' := by omega
        exact Nat.le_refl _
      · omega

/-- Rounding a ratio does not depend on the units it is counted in. -/
theorem roundHalfEven_mul_right (num den : Nat) {k : Nat} (hk : 0 < k) :
    roundHalfEven (num * k) (den * k) = roundHalfEven num den := by
  have hbelow : 2 * (num % den * k) < den * k ↔ 2 * (num % den) < den := by
    rw [← Nat.mul_assoc, Nat.mul_lt_mul_right hk]
  have habove : den * k < 2 * (num % den * k) ↔ den < 2 * (num % den) := by
    rw [← Nat.mul_assoc, Nat.mul_lt_mul_right hk]
  simp only [roundHalfEven, Nat.mul_div_mul_right _ _ hk, Nat.mul_mod_mul_right, hbelow, habove]

end

/-! ## Magnitudes -/

/-- One is a power of two of units; which one does not matter. -/
theorem exists_one_eq : ∃ k, one = Nat.pow 2 k := by
  delta one
  exact ⟨_, Eq.refl _⟩

theorem one_pos : 0 < one := by
  obtain ⟨k, hk⟩ := exists_one_eq
  rw [hk]
  exact Nat.two_pow_pos k

theorem spacing_pos (n : Nat) : 0 < spacing n := Nat.two_pow_pos _

/-- A whole magnitude is rounded to a multiple of its spacing. -/
theorem roundUnits_eq (n : Nat) :
    roundUnits n 1 = spacing n * roundHalfEven n (spacing n) := by
  rw [roundUnits, Nat.div_one, Nat.one_mul]

/-- **A multiple of its spacing is kept as it is.** -/
theorem roundUnits_of_dvd {n : Nat} (h : spacing n ∣ n) : roundUnits n 1 = n := by
  obtain ⟨k, hk⟩ := h
  have hround : roundHalfEven n (spacing n) = k := by
    have hmul : n = k * spacing n := hk.trans (Nat.mul_comm _ _)
    exact Nat.le_antisymm (roundHalfEven_le (spacing_pos n) (Nat.le_of_eq hmul))
      (le_roundHalfEven (spacing_pos n) (Nat.le_of_eq hmul.symm))
  rw [roundUnits_eq, hround, ← hk]

/-- A magnitude up to a power of two is rounded to no more than that. -/
theorem roundUnits_le_two_pow {n k : Nat} (h : n ≤ 2 ^ k) : roundUnits n 1 ≤ 2 ^ k := by
  have hlog : n.log2 ≤ k := by
    rcases Nat.eq_zero_or_pos n with rfl | hpos
    · exact Nat.zero_le k
    · rw [← Nat.pow_le_pow_iff_right (by decide : 1 < 2)]
      exact Nat.le_trans (Nat.log2_self_le (Nat.ne_of_gt hpos)) h
  have hsplit : 2 ^ k = spacing n * 2 ^ (k - (n.log2 - 52)) := by
    change 2 ^ k = 2 ^ (n.log2 - 52) * 2 ^ (k - (n.log2 - 52))
    rw [← Nat.pow_add]
    congr 1
    omega
  rw [roundUnits_eq, hsplit]
  refine Nat.mul_le_mul_left _ (roundHalfEven_le (spacing_pos n) ?_)
  rwa [Nat.mul_comm, ← hsplit]

/-- A magnitude from a power of two on is rounded to no less than that. -/
theorem two_pow_le_roundUnits {n k : Nat} (h : 2 ^ k ≤ n) : 2 ^ k ≤ roundUnits n 1 := by
  have hne : n ≠ 0 := Nat.ne_of_gt (Nat.lt_of_lt_of_le (Nat.two_pow_pos k) h)
  have hsplit : 2 ^ n.log2 = spacing n * 2 ^ (n.log2 - (n.log2 - 52)) := by
    change 2 ^ n.log2 = 2 ^ (n.log2 - 52) * 2 ^ (n.log2 - (n.log2 - 52))
    rw [← Nat.pow_add]
    congr 1
    omega
  calc
    2 ^ k ≤ 2 ^ n.log2 := Nat.pow_le_pow_right (by decide) ((Nat.le_log2 hne).mpr h)
    _ ≤ roundUnits n 1 := by
      rw [roundUnits_eq, hsplit]
      refine Nat.mul_le_mul_left _ (le_roundHalfEven (spacing_pos n) ?_)
      rw [Nat.mul_comm, ← hsplit]
      exact Nat.log2_self_le hne

/-- A number has no fewer bits than a smaller one. -/
theorem log2_le_log2 {m n : Nat} (h : m ≤ n) : m.log2 ≤ n.log2 := by
  rcases Nat.eq_zero_or_pos m with rfl | hpos
  · rw [Nat.log2_zero]
    exact Nat.zero_le _
  · have hn : n ≠ 0 := by omega
    rw [Nat.le_log2 hn]
    exact Nat.le_trans (Nat.log2_self_le (Nat.ne_of_gt hpos)) h

/-- **Rounding keeps the order of magnitudes.** -/
theorem roundUnits_mono {m n : Nat} (h : m ≤ n) : roundUnits m 1 ≤ roundUnits n 1 := by
  rcases Nat.lt_or_ge m.log2 n.log2 with hlt | hge
  · -- a power of two stands between them
    calc
      roundUnits m 1 ≤ 2 ^ (m.log2 + 1) := roundUnits_le_two_pow (Nat.le_of_lt Nat.lt_log2_self)
      _ ≤ 2 ^ n.log2 := Nat.pow_le_pow_right (by decide) hlt
      _ ≤ roundUnits n 1 := by
        refine two_pow_le_roundUnits (Nat.log2_self_le ?_)
        rintro rfl
        exact absurd hlt (by simp)
  · have hlog : m.log2 = n.log2 := Nat.le_antisymm (log2_le_log2 h) hge
    have hspacing : spacing m = spacing n := by rw [spacing, spacing, hlog]
    rw [roundUnits_eq, roundUnits_eq, hspacing]
    exact Nat.mul_le_mul_left _ (roundHalfEven_mono (spacing_pos n) h)

/-! ## Whole numbers -/

/-- The units of the double nearest to a natural number. -/
def natUnits (n : Nat) : Nat := roundUnits (n * one) 1

/-- A greater number has no smaller double. -/
theorem natUnits_mono {m n : Nat} (h : m ≤ n) : natUnits m ≤ natUnits n :=
  roundUnits_mono (Nat.mul_le_mul_right one h)

/-- A power of two adds its bits. -/
theorem log2_mul_two_pow {n : Nat} (hpos : 0 < n) (k : Nat) :
    (n * 2 ^ k).log2 = n.log2 + k := by
  have hne : n * 2 ^ k ≠ 0 := Nat.ne_of_gt (Nat.mul_pos hpos (Nat.two_pow_pos k))
  refine (Nat.log2_eq_iff hne).mpr ⟨?_, ?_⟩
  · rw [Nat.pow_add]
    exact Nat.mul_le_mul_right _ (Nat.log2_self_le (Nat.ne_of_gt hpos))
  · rw [Nat.add_right_comm, Nat.pow_add]
    exact Nat.mul_lt_mul_of_pos_right Nat.lt_log2_self (Nat.two_pow_pos k)

/-- Up to `2⁵³` times a unit, the spacing is no more than the unit, or the number is a
power of two. -/
theorem spacing_dvd {n : Nat} (h : n ≤ 2 ^ 53) (k : Nat) :
    spacing (n * Nat.pow 2 k) ∣ n * Nat.pow 2 k := by
  rcases Nat.eq_zero_or_pos n with rfl | hpos
  · rw [Nat.zero_mul]
    exact Nat.dvd_zero _
  have hspacing : spacing (n * Nat.pow 2 k) = 2 ^ (n.log2 + k - 52) :=
    congrArg (fun bits => 2 ^ (bits - 52)) (log2_mul_two_pow hpos k)
  rw [hspacing]
  rcases Nat.lt_or_eq_of_le h with hlt | rfl
  · have hbits : n.log2 < 53 := (Nat.log2_lt (Nat.ne_of_gt hpos)).mpr hlt
    exact Nat.dvd_mul_left_of_dvd (Nat.pow_dvd_pow 2 (by omega)) n
  · rw [Nat.log2_two_pow]
    exact Nat.pow_add 2 53 k ▸ Nat.pow_dvd_pow 2 (Nat.sub_le _ _)

/-- **Whole numbers up to `2⁵³` are kept as they are.** -/
theorem natUnits_of_le {n : Nat} (h : n ≤ 2 ^ 53) : natUnits n = n * one := by
  obtain ⟨k, hk⟩ := exists_one_eq
  rw [natUnits, hk]
  exact roundUnits_of_dvd (spacing_dvd h k)

/-- **Whole numbers from `2⁶³ - 512` on are rounded to `2⁶³` or more.** -/
theorem top_le_natUnits {n : Nat} : 2 ^ 63 * one ≤ natUnits n ↔ 2 ^ 63 - 512 ≤ n := by
  refine ⟨fun h => Nat.not_lt.mp fun hlt => ?_, fun h => ?_⟩
  · have hbelow : natUnits (2 ^ 63 - 513) < 2 ^ 63 * one := by decide +kernel
    have hmono : natUnits n ≤ natUnits (2 ^ 63 - 513) := natUnits_mono (by omega)
    omega
  · have htop : natUnits (2 ^ 63 - 512) = 2 ^ 63 * one := by decide +kernel
    exact htop ▸ natUnits_mono h

/-- **Whole numbers up to `2⁶³ + 1024` are rounded to `2⁶³` or less.** -/
theorem natUnits_le_top {n : Nat} : natUnits n ≤ 2 ^ 63 * one ↔ n ≤ 2 ^ 63 + 1024 := by
  refine ⟨fun h => Nat.not_lt.mp fun hlt => ?_, fun h => ?_⟩
  · have habove : 2 ^ 63 * one < natUnits (2 ^ 63 + 1025) := by decide +kernel
    have hmono : natUnits (2 ^ 63 + 1025) ≤ natUnits n := natUnits_mono hlt
    omega
  · have htop : natUnits (2 ^ 63 + 1024) = 2 ^ 63 * one := by decide +kernel
    exact htop ▸ natUnits_mono h

/-- Between `2⁶³` and `2⁶⁴`, the doubles next to each other are 2048 apart. -/
theorem spacing_of_top {n : Nat} (h : 2 ^ 63 ≤ n) (h' : n < 2 ^ 64) :
    spacing (n * one) = 2048 * one := by
  obtain ⟨k, hk⟩ := exists_one_eq
  have hbits : n.log2 = 63 := (Nat.log2_eq_iff (by omega)).mpr ⟨h, h'⟩
  have hlog : (n * Nat.pow 2 k).log2 = 63 + k := by
    have hmul := log2_mul_two_pow (by omega : 0 < n) k
    rwa [hbits] at hmul
  have hexponent : 63 + k - 52 = 11 + k := by omega
  rw [hk, spacing, hlog, hexponent]
  exact Nat.pow_add 2 11 k

/-- **Whole numbers from `2⁶³ - 512` on are rounded to multiples of 2048.** -/
theorem natUnits_of_top {n : Nat} (h : 2 ^ 63 - 512 ≤ n) (h' : n < 2 ^ 64) :
    natUnits n = roundHalfEven n 2048 * (2048 * one) := by
  rcases Nat.lt_or_ge n (2 ^ 63) with hlt | hge
  · -- the spacing is 1024 there, but all of them are rounded up to `2⁶³`
    have htop : natUnits n = 2 ^ 63 * one :=
      Nat.le_antisymm (natUnits_le_top.mpr (by omega)) (top_le_natUnits.mpr h)
    have hround : roundHalfEven n 2048 = 2 ^ 52 := by
      rcases roundHalfEven_cases n 2048 with ⟨-, hhalf⟩ | ⟨hup, -⟩ <;> omega
    have hsplit : 2 ^ 63 = 2 ^ 52 * 2048 := rfl
    rw [htop, hround, hsplit, Nat.mul_assoc]
  · have hspacing := spacing_of_top hge h'
    rw [natUnits, roundUnits_eq, hspacing, roundHalfEven_mul_right n 2048 one_pos, Nat.mul_comm]

theorem units_ofInt (n : Int) : (ofInt n).units = natUnits n.natAbs := rfl

/-- A whole number as a double: its sign, and the units of its magnitude. -/
theorem signedUnits_ofInt (n : Int) : (ofInt n).signedUnits = n.sign * natUnits n.natAbs := by
  rw [signedUnits, units_ofInt]
  rcases Int.lt_trichotomy n 0 with h | rfl | h
  · have hsign : (ofInt n).negative = true := decide_eq_true h
    rw [if_pos hsign, Int.sign_eq_neg_one_of_neg h, Int.neg_one_mul]
  · rw [Int.natAbs_zero, natUnits_of_le (Nat.zero_le _), Nat.zero_mul]
    simp
  · have hsign : ¬ (ofInt n).negative = true := by simp [ofInt]; omega
    rw [if_neg hsign, Int.sign_eq_one_of_pos h, Int.one_mul]

theorem signedUnits_ofInt_natCast (n : Nat) : (ofInt n).signedUnits = natUnits n := by
  rw [signedUnits_ofInt, Int.natAbs_natCast]
  rcases Nat.eq_zero_or_pos n with rfl | hpos
  · rw [natUnits_of_le (Nat.zero_le _), Nat.zero_mul]
    rfl
  · rw [Int.sign_eq_one_of_pos (Int.natCast_pos.mpr hpos), Int.one_mul]

/-- **Integers up to `2⁵³` in magnitude are exact.** -/
theorem signedUnits_ofInt_of_le {n : Int} (h : n.natAbs ≤ 2 ^ 53) :
    (ofInt n).signedUnits = n * one := by
  rw [signedUnits_ofInt, natUnits_of_le h, Int.natCast_mul, ← Int.mul_assoc,
    Int.sign_mul_natAbs]

end Double

end ScopedDocs
