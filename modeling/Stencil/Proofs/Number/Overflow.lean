import Stencil.Number.Double.Basic
import Mathlib.Tactic.Ring

/-!
# Integers past the greatest double

An integer has a finite double nearest to it exactly if its size is below `overflowBound`, which
lies halfway between the greatest double and 2 to the power 1024. A size on the bound rounds up,
because the greatest double has an odd rank.

**The proof** works in any interval of doubles between two powers of two: `2 ^ (52 + d)` and the
next one, counted in units of `2 ^ s` to one. Below the interval rounding leaves ranks above it
free, and behind it the rank to round from is past it already. Inside, a rank is a mantissa of 53
bits, and only the last mantissa needs the comparison with the midpoint.

Main result: `ofInt?_eq_none_iff`.
-/

namespace Stencil.Double

/-- The least size of an integer that rounds to infinity. -/
def overflowBound : Nat := 2 ^ 1024 - 2 ^ 970

/-! ## The rank below a size -/

theorem le_mantissa {size e : Nat} (h : 2 ^ (52 + e) ≤ size) : 2 ^ 52 ≤ size / 2 ^ e := by
  rwa [Nat.le_div_iff_mul_le (Nat.two_pow_pos e), ← Nat.pow_add]

theorem mantissa_lt {size e : Nat} (h : size < 2 ^ (53 + e)) : size / 2 ^ e < 2 ^ 53 := by
  rwa [Nat.div_lt_iff_lt_mul (Nat.two_pow_pos e), ← Nat.pow_add]

/-- Between two powers of two the ranks are numbered by mantissas. -/
theorem rankBelow_eq {size e : Nat} (hlarge : 2 ^ 53 ≤ size) (hle : 2 ^ (52 + e) ≤ size)
    (hlt : size < 2 ^ (53 + e)) : rankBelow size = e * 2 ^ 52 + size / 2 ^ e := by
  have hpos : size ≠ 0 := by omega
  have hlog : size.log2 = 52 + e := by
    refine (Nat.log2_eq_iff hpos).2 ⟨hle, ?_⟩
    rwa [Nat.add_right_comm]
  have hexponent : size.log2 - 52 = e := by omega
  rw [rankBelow, if_neg (Nat.not_lt.2 hlarge)]
  simp only [hexponent]

/-- A size of at least 53 bits lies between two powers of two. -/
theorem exists_exponent {size : Nat} (h : 2 ^ 53 ≤ size) :
    ∃ e, 2 ^ (52 + e) ≤ size ∧ size < 2 ^ (53 + e) := by
  have hpos : size ≠ 0 := by omega
  have hlog : 53 ≤ size.log2 := (Nat.le_log2 hpos).2 h
  obtain ⟨e, he⟩ := Nat.exists_eq_add_of_le (Nat.le_of_succ_le hlog)
  have hlt := Nat.lt_log2_self (n := size)
  rw [he, Nat.add_right_comm] at hlt
  exact ⟨e, he ▸ Nat.log2_self_le hpos, hlt⟩

theorem rankBelow_lt {size e : Nat} (h : size < 2 ^ (53 + e)) :
    rankBelow size < e * 2 ^ 52 + 2 ^ 53 := by
  by_cases hsmall : size < 2 ^ 53
  · rw [rankBelow, if_pos hsmall]
    omega
  · obtain ⟨e', hle, hlt⟩ := exists_exponent (Nat.not_lt.1 hsmall)
    have hexponent : 52 + e' < 53 + e := (Nat.pow_lt_pow_iff_right (by decide)).1 (hle.trans_lt h)
    have hmantissa := mantissa_lt hlt
    rw [rankBelow_eq (Nat.not_lt.1 hsmall) hle hlt]
    omega

theorem le_rankBelow {size e : Nat} (hlarge : 2 ^ 53 ≤ size) (h : 2 ^ (52 + e) ≤ size) :
    (e + 1) * 2 ^ 52 ≤ rankBelow size := by
  obtain ⟨e', hle, hlt⟩ := exists_exponent hlarge
  have hexponent : 52 + e < 53 + e' := (Nat.pow_lt_pow_iff_right (by decide)).1 (h.trans_lt hlt)
  have hmantissa := le_mantissa hle
  rw [rankBelow_eq hlarge hle hlt]
  omega

/-! ## Rounding integers -/

/-- A mantissa of 53 bits is the size of its rank in units of its power of two. -/
theorem units_of_mantissa {e m : Nat} (he : 1 ≤ e) (hm : 2 ^ 52 ≤ m) (hlt : m < 2 ^ 53) :
    units (e * 2 ^ 52 + m) = m * 2 ^ e := by
  have hlarge : ¬ e * 2 ^ 52 + m < 2 ^ 53 := by omega
  have hdiv : (e * 2 ^ 52 + m) / 2 ^ 52 - 1 = e := by omega
  have hmod : 2 ^ 52 + (e * 2 ^ 52 + m) % 2 ^ 52 = m := by omega
  rw [units, if_neg hlarge, hdiv, hmod]

/-- Twice the midpoint between the last double below a power of two and the power. -/
theorem units_last_add_next {e : Nat} (he : 1 ≤ e) :
    units (e * 2 ^ 52 + (2 ^ 53 - 1)) + units ((e + 1) * 2 ^ 52 + 2 ^ 52) =
      (2 ^ 54 - 1) * 2 ^ e := by
  rw [units_of_mantissa he (by decide) (by decide),
    units_of_mantissa (Nat.le_add_left 1 e) (by decide) (by decide), Nat.pow_succ]
  ring

/-- Rounding goes to the rank below or to the one after it. -/
theorem roundRank_bounds (num den : Nat) :
    rankBelow (num / den) ≤ roundRank num den ∧
      roundRank num den ≤ rankBelow (num / den) + 1 := by
  unfold roundRank
  dsimp only
  split <;> omega

variable {d s n : Nat}

/-- In an interval of doubles the rank below an integer is numbered by the mantissa of it. -/
theorem rankBelow_scaled (hs : 53 ≤ s) (hle : 2 ^ (52 + d) ≤ n) (hlt : n < 2 ^ (53 + d)) :
    rankBelow (n * 2 ^ s) = (d + s) * 2 ^ 52 + n / 2 ^ d := by
  have hlow : 2 ^ (52 + (d + s)) ≤ n * 2 ^ s := by
    rw [← Nat.add_assoc, Nat.pow_add]
    exact Nat.mul_le_mul_right _ hle
  have hhigh : n * 2 ^ s < 2 ^ (53 + (d + s)) := by
    rw [← Nat.add_assoc, Nat.pow_add]
    exact Nat.mul_lt_mul_of_pos_right hlt (Nat.two_pow_pos s)
  have hlarge : 2 ^ 53 ≤ n * 2 ^ s := (Nat.pow_le_pow_right (by decide) (by omega)).trans hlow
  rw [rankBelow_eq hlarge hlow hhigh, Nat.pow_add, Nat.mul_div_mul_right _ _ (Nat.two_pow_pos s)]

/-- From the last mantissa rounding stays in its interval exactly below the midpoint. -/
theorem roundRank_last_lt_iff (hs : 53 ≤ s)
    (hrank : rankBelow (n * 2 ^ s) = (d + s) * 2 ^ 52 + (2 ^ 53 - 1)) :
    roundRank (n * 2 ^ s) 1 < (d + s + 2) * 2 ^ 52 ↔ 2 * n < (2 ^ 54 - 1) * 2 ^ d := by
  have hnext : (d + s) * 2 ^ 52 + (2 ^ 53 - 1) + 1 = (d + s + 1) * 2 ^ 52 + 2 ^ 52 := by omega
  have hodd : ((d + s) * 2 ^ 52 + (2 ^ 53 - 1)) % 2 = 1 := by omega
  have hmiddle : 2 * (n * 2 ^ s) < (2 ^ 54 - 1) * 2 ^ (d + s) ↔ 2 * n < (2 ^ 54 - 1) * 2 ^ d := by
    rw [Nat.pow_add, ← Nat.mul_assoc, ← Nat.mul_assoc]
    exact Nat.mul_lt_mul_right (Nat.two_pow_pos s)
  unfold roundRank
  simp only [Nat.div_one, hrank, hnext, units_last_add_next (show 1 ≤ d + s by omega), Nat.one_mul]
  rw [← hmiddle, hodd]
  by_cases hc : 2 * (n * 2 ^ s) < (2 ^ 54 - 1) * 2 ^ (d + s)
  · simp only [hc, decide_true, Bool.true_or, if_true, iff_true]
    omega
  · simp only [hc, decide_false, Bool.false_or, Nat.reduceBEq, Bool.and_false, Bool.false_eq_true,
      if_false, iff_false]
    omega

/-- An integer rounds to a rank up to the end of an interval of doubles exactly below the midpoint
behind the last double of it. -/
theorem roundRank_lt_iff (hs : 53 ≤ s) :
    roundRank (n * 2 ^ s) 1 < (d + s + 2) * 2 ^ 52 ↔ 2 * n < (2 ^ 54 - 1) * 2 ^ d := by
  obtain ⟨hge, hle⟩ := roundRank_bounds (n * 2 ^ s) 1
  rw [Nat.div_one] at hge hle
  rcases Nat.lt_or_ge n (2 ^ (52 + d)) with hlow | hlow
  · -- Below the interval both sides hold.
    have hsize : n * 2 ^ s < 2 ^ (53 + (d + s - 1)) := by
      rw [show 53 + (d + s - 1) = 52 + d + s by omega, Nat.pow_add]
      exact Nat.mul_lt_mul_of_pos_right hlow (Nat.two_pow_pos s)
    have hbelow := rankBelow_lt hsize
    rw [Nat.pow_add] at hlow
    exact iff_of_true (by omega) (by omega)
  rcases Nat.lt_or_ge n (2 ^ (53 + d)) with hhigh | hhigh
  · have hrank := rankBelow_scaled hs hlow hhigh
    have hmantissa := mantissa_lt hhigh
    by_cases hlast : n / 2 ^ d = 2 ^ 53 - 1
    · rw [hlast] at hrank
      exact roundRank_last_lt_iff hs hrank
    · have hn : n < (n / 2 ^ d + 1) * 2 ^ d :=
        (Nat.div_lt_iff_lt_mul (Nat.two_pow_pos d)).1 (Nat.lt_succ_self _)
      have hm : (n / 2 ^ d + 1) * 2 ^ d ≤ (2 ^ 53 - 1) * 2 ^ d := Nat.mul_le_mul_right _ (by omega)
      exact iff_of_true (by omega) (by omega)
  · -- Behind the interval neither side holds.
    have hsize : 2 ^ (52 + (d + s + 1)) ≤ n * 2 ^ s := by
      rw [show 52 + (d + s + 1) = 53 + d + s by omega, Nat.pow_add]
      exact Nat.mul_le_mul_right _ hhigh
    have hlarge : 2 ^ 53 ≤ n * 2 ^ s := (Nat.pow_le_pow_right (by decide) (by omega)).trans hsize
    have hbelow := le_rankBelow hlarge hsize
    rw [Nat.pow_add] at hhigh
    exact iff_of_false (by omega) (by omega)

/-- An integer rounds to a finite double exactly if its size is below the bound. -/
theorem isFinite_round_iff (negative : Bool) (n : Nat) :
    (round negative n 1).isFinite = true ↔ n < overflowBound := by
  have hbound : 2 * n < (2 ^ 54 - 1) * 2 ^ 971 ↔ n < overflowBound := by
    have htop : 2 ^ 1024 = 2 ^ 54 * 2 ^ 970 := by rw [← Nat.pow_add]
    have hdouble : 2 ^ 971 = 2 ^ 970 * 2 := by rw [← Nat.pow_succ]
    rw [overflowBound, htop, hdouble]
    omega
  rw [round, isFinite_ofRank, ← hbound]
  exact roundRank_lt_iff (d := 971) (by decide)

/-- **Integers past the greatest double.** An integer has a double nearest to it exactly if its
size is below the bound. -/
theorem ofInt?_eq_none_iff (n : Int) : ofInt? n = none ↔ overflowBound ≤ n.natAbs := by
  have hfinite := isFinite_round_iff (n < 0) n.natAbs
  rw [ofInt?]
  split
  · next h => exact iff_of_false (Option.some_ne_none _) (Nat.not_le.2 (hfinite.1 h))
  · next h => exact iff_of_true rfl (Nat.not_lt.1 fun hlt => h (hfinite.2 hlt))

end Stencil.Double
