import Mathlib.Algebra.Field.Rat
import Mathlib.Tactic.FieldSimp
import Stencil.Proofs.Number.Shortest

/-!
# Decimals that are integers

A finite decimal stands for a rational number (`value?`), whatever the count of its digits and the
size of its exponent. The integer that is found for a decimal is that number, and one is found
whenever the number is an integer (`toInt?_eq_some_iff`).

Rounding to a double sees the number as well: an integer has the same finite double nearest to it in
every spelling as a decimal, and none exactly from `Double.overflowBound` on
(`isFinite_ofDecimal?_iff`). The shortcuts for decimals far from the point agree with that, because
an integer that is not zero has its first digit before the point, and one of more than 400 digits is
past the bound.
-/

namespace Stencil

open Double (tenUp tenDown)

namespace Integer

@[simp] theorem natAbs_signed (negative : Bool) (n : Nat) : (signed negative n).natAbs = n := by
  cases negative <;> simp [signed]

theorem signed_mul (negative : Bool) (a b : Nat) :
    signed negative a * (b : Int) = signed negative (a * b) := by
  cases negative <;> simp [signed]

end Integer

namespace Decimal

open Integer (signed_mul)

variable {c n : Nat} {e : Int}

/-- The number that a finite decimal stands for. -/
def value? : Decimal → Option ℚ
  | finite negative coefficient exponent =>
    some ((Integer.signed negative coefficient : ℚ) * 10 ^ exponent)
  | _ => none

/-! ## Numbers as quotients -/

theorem pow_eq_div (e : Int) : (10 : ℚ) ^ e = tenUp e / tenDown e := by
  unfold tenUp tenDown
  by_cases he : 0 ≤ e
  · obtain ⟨k, rfl⟩ := Int.eq_ofNat_of_zero_le he
    rw [if_pos he, if_pos he, zpow_natCast]
    simp
  · obtain ⟨k, rfl⟩ : ∃ k : Nat, e = -(k : Int) := ⟨e.natAbs, by omega⟩
    rw [if_neg he, if_neg he, zpow_neg, zpow_natCast]
    simp

/-- A coefficient with its exponent is an integer if the powers of ten come out even. -/
theorem mul_pow_eq_iff {a m : Int} :
    (a : ℚ) * 10 ^ e = m ↔ a * (tenUp e : Int) = m * (tenDown e : Int) := by
  have hdown : (tenDown e : ℚ) ≠ 0 := by exact_mod_cast Nat.ne_of_gt (Double.tenDown_pos e)
  rw [pow_eq_div, ← mul_div_assoc, div_eq_iff hdown]
  exact_mod_cast Iff.rfl

/-! ## The integer of a decimal -/

theorem toNat?_eq_some_iff : toNat? c e = some n ↔ c * tenUp e = n * tenDown e := by
  have hten : 0 < 10 ^ e.natAbs := Nat.pow_pos (by decide)
  unfold toNat? tenUp tenDown
  split
  · next hc =>
    subst hc
    split <;> simp [eq_comm]
  · next hc =>
    by_cases he : 0 ≤ e
    · simp [he]
    · rw [if_neg he, if_neg he, if_neg he, Nat.mul_one]
      split
      · next hcount =>
        -- All digits stand behind the point, so the number is below one.
        have hlt : c < 10 ^ e.natAbs :=
          (Integer.length_digits_le_iff (Nat.lt_of_lt_of_le (Double.digitCount_pos c) hcount)).1 hcount
        refine iff_of_false (Option.some_ne_none _ ·.symm) ?_
        rintro rfl
        have hn : n < 1 := Nat.lt_of_mul_lt_mul_right (by rwa [Nat.one_mul])
        simp [Nat.lt_one_iff.1 hn] at hc
      · split
        · next hmod =>
          rw [Option.some_inj]
          constructor
          · rintro rfl
            exact (Nat.div_mul_cancel (Nat.dvd_of_mod_eq_zero hmod)).symm
          · rintro rfl
            exact Nat.mul_div_cancel _ hten
        · next hmod =>
          refine iff_of_false (Option.some_ne_none _ ·.symm) ?_
          rintro rfl
          exact hmod (Nat.mul_mod_left _ _)

/-- **The integer of a decimal** is the number that the decimal stands for, and every decimal that
stands for an integer has it. -/
theorem toInt?_eq_some_iff {d : Decimal} {m : Int} : d.toInt? = some m ↔ d.value? = some (m : ℚ) := by
  cases d with
  | infinity | nan => simp [toInt?, value?]
  | finite negative c e =>
    rw [value?, Option.some_inj, mul_pow_eq_iff, toInt?, Option.map_eq_some_iff]
    constructor
    · rintro ⟨n, hn, rfl⟩
      rw [signed_mul, signed_mul, toNat?_eq_some_iff.1 hn]
    · intro h
      have hsize : c * tenUp e = m.natAbs * tenDown e := by
        have habs := congrArg Int.natAbs h
        rwa [signed_mul, Integer.natAbs_signed, Int.natAbs_mul, Int.natAbs_natCast] at habs
      refine ⟨m.natAbs, toNat?_eq_some_iff.2 hsize, ?_⟩
      have hdown : (tenDown e : Int) ≠ 0 := by exact_mod_cast Nat.ne_of_gt (Double.tenDown_pos e)
      refine Int.eq_of_mul_eq_mul_right hdown ?_
      rw [signed_mul, ← hsize, ← signed_mul, h]

end Decimal

namespace Double

open Decimal

variable {c n : Nat} {e : Int}

/-! ## The double of an integer -/

/-- The first digit of an integer that is not zero stands before the point. -/
theorem adjusted_nonneg (hc : c ≠ 0) (h : c * tenUp e = n * tenDown e) : 0 ≤ adjusted c e := by
  have hcount := digitCount_pos c
  by_cases he : 0 ≤ e
  · unfold adjusted
    omega
  · unfold tenUp tenDown at h
    rw [if_neg he, if_neg he, Nat.mul_one] at h
    have hn : 0 < n := by
      rw [Nat.pos_iff_ne_zero]
      rintro rfl
      exact hc (by rw [h, Nat.zero_mul])
    have hle : 10 ^ e.natAbs ≤ c := h ▸ Nat.le_mul_of_pos_left _ hn
    have hplaces : ¬ digitCount c ≤ e.natAbs := by
      intro hfew
      exact Nat.not_lt.2 hle ((Integer.length_digits_le_iff (Nat.lt_of_lt_of_le hcount hfew)).1 hfew)
    unfold adjusted
    omega

/-- An integer whose first digit stands more than 400 places before the point is past the bound. -/
theorem overflowBound_le (hfar : 400 < adjusted c e) (hc : c ≠ 0) (h : c * tenUp e = n * tenDown e) :
    overflowBound ≤ n := by
  have hcount := digitCount_pos c
  have hten := tenUp_add e (digitCount c - 1)
  have hpos : 0 ≤ e + ((digitCount c - 1 : Nat) : Int) := by
    unfold adjusted at hfar
    omega
  have hplaces : 400 ≤ (e + ((digitCount c - 1 : Nat) : Int)).natAbs := by
    unfold adjusted at hfar
    omega
  have hpow : overflowBound ≤ tenUp (e + (digitCount c - 1 : Nat)) := by
    calc overflowBound ≤ 10 ^ 400 := by decide +kernel
      _ ≤ 10 ^ (e + ((digitCount c - 1 : Nat) : Int)).natAbs :=
        Nat.pow_le_pow_right (by decide) hplaces
      _ = tenUp (e + (digitCount c - 1 : Nat)) := (if_pos hpos).symm
  have hdown : tenDown (e + (digitCount c - 1 : Nat)) = 1 := if_pos hpos
  rw [hdown, Nat.mul_one] at hten
  have hle : overflowBound * tenDown e ≤ n * tenDown e := by
    calc overflowBound * tenDown e
      _ ≤ tenUp (e + (digitCount c - 1 : Nat)) * tenDown e := Nat.mul_le_mul_right _ hpow
      _ = 10 ^ (digitCount c - 1) * tenUp e := hten
      _ ≤ c * tenUp e := Nat.mul_le_mul_right _ (pow_digitCount_le (Nat.pos_of_ne_zero hc))
      _ = n * tenDown e := h
  exact Nat.le_of_mul_le_mul_right hle (tenDown_pos e)

/-- An integer rounds to the same double in every spelling. -/
theorem round_eq (negative : Bool) (h : c * tenUp e = n * tenDown e) :
    round negative (c * tenUp e) (tenDown e) = round negative n 1 := by
  have hsame : c * tenUp e * scale * 1 = n * scale * tenDown e := by
    rw [h, Nat.mul_one, Nat.mul_right_comm]
  rw [round, round, roundRank_congr (tenDown_pos e) Nat.one_pos hsame]

theorem isFinite_ofScientific_iff (negative : Bool) (h : c * tenUp e = n * tenDown e) :
    (ofScientific negative c e).isFinite = true ↔ n < overflowBound := by
  have hround := round_eq negative h
  unfold ofScientific
  dsimp only
  by_cases hc : c = 0
  · subst hc
    have hn : n = 0 := by
      rw [Nat.zero_mul] at h
      exact (Nat.mul_eq_zero.1 h.symm).resolve_right (Nat.ne_of_gt (tenDown_pos e))
    subst hn
    exact iff_of_true (by simp [zero]) (by decide +kernel)
  · have hnear := adjusted_nonneg hc h
    rw [if_neg (by simp only [Bool.or_eq_true, decide_eq_true_eq]; omega)]
    split
    · next hfar =>
      exact iff_of_false (by simp [isFinite]) (Nat.not_lt.2 (overflowBound_le hfar hc h))
    · unfold tenUp tenDown at hround
      split
      · next he =>
        rw [if_pos he, if_pos he] at hround
        rw [hround, isFinite_round_iff]
      · next he =>
        rw [if_neg he, if_neg he, Nat.mul_one] at hround
        rw [hround, isFinite_round_iff]

/-- **An integer has a finite double nearest to it exactly if its size is below the bound**, however
it is spelt as a decimal. -/
theorem isFinite_ofDecimal?_iff {d : Decimal} {m : Int} (h : d.value? = some (m : ℚ)) :
    (∃ x, ofDecimal? d = some x ∧ x.isFinite = true) ↔ m.natAbs < overflowBound := by
  cases d with
  | infinity | nan => cases h
  | finite negative c e =>
    obtain ⟨n, hn, rfl⟩ := Option.map_eq_some_iff.1 (toInt?_eq_some_iff.2 h)
    rw [Integer.natAbs_signed, ← isFinite_ofScientific_iff negative (toNat?_eq_some_iff.1 hn)]
    simp [ofDecimal?]

end Double
end Stencil
