import Stencil.Number.Double.Text
import Stencil.Proofs.Number.Digits
import Stencil.Proofs.Number.Rounding

/-!
# The shortest digits read back

A power of ten is a quotient of two numbers, `tenUp` over `tenDown`, so that what is written of a
double and what is read are quotients of natural numbers.

**Writing finds digits.** The distance between the two neighbours of a rank is more than the rank
over half of ten to the sixteenth (`twice_units_lt`). So if a power of ten is at most the rank over
ten to the sixteenth, one of the two multiples of it next to the rank lies between the midpoints
(`isSome_candidate?`), and the last of the seventeen tries has such a power (`readsBack_shortest?`).

**Reading rounds.** What lies between the midpoints rounds to the rank (`roundRank_of_readsBack`),
and zeros moved from the digits to the exponent change no quotient (`readsBack_stripZeros`).

Main result: `ofScientific_shortestDigits`.
-/

namespace Stencil.Double

open Decimal

/-! ## Powers of ten -/

/-- The numerator of a power of ten. -/
def tenUp (e : Int) : Nat := if 0 ≤ e then 10 ^ e.natAbs else 1

/-- The denominator of a power of ten. -/
def tenDown (e : Int) : Nat := if 0 ≤ e then 1 else 10 ^ e.natAbs

theorem tenUp_pos (e : Int) : 0 < tenUp e := by
  unfold tenUp
  split
  · exact Nat.pow_pos (by decide)
  · decide

theorem tenDown_pos (e : Int) : 0 < tenDown e := by
  unfold tenDown
  split
  · decide
  · exact Nat.pow_pos (by decide)

/-- A power of ten is so many times a lower one. -/
theorem tenUp_add (e : Int) (k : Nat) :
    tenUp (e + k) * tenDown e = 10 ^ k * tenUp e * tenDown (e + k) := by
  unfold tenUp tenDown
  by_cases he : 0 ≤ e
  · have hk : 0 ≤ e + k := by omega
    have hsum : (e + k).natAbs = k + e.natAbs := by omega
    rw [if_pos he, if_pos he, if_pos hk, if_pos hk, hsum, Nat.pow_add]
  · by_cases hk : 0 ≤ e + k
    · have hsum : k = (e + k).natAbs + e.natAbs := by omega
      rw [if_neg he, if_neg he, if_pos hk, if_pos hk, ← Nat.pow_add, ← hsum]
      ring
    · have hsum : e.natAbs = k + (e + k).natAbs := by omega
      rw [if_neg he, if_neg he, if_neg hk, if_neg hk, hsum, Nat.pow_add]
      ring

theorem scale_pos : 0 < scale := by decide +kernel

/-! ## Comparing with midpoints -/

variable {rank d k : Nat} {e : Int}

theorem compareHalf_eq (d : Nat) (e : Int) (halves : Nat) :
    compareHalf d e halves = compare (d * tenUp e * (2 * scale)) (halves * tenDown e) := by
  unfold compareHalf tenUp tenDown
  split
  · rw [Nat.mul_one]
  · rw [Nat.mul_one]

/-- What reads back as a rank rounds to it. -/
theorem roundRank_of_readsBack (hr : 0 < rank) (h : readsBack rank d e = true) :
    roundRank (d * tenUp e * scale) (tenDown e) = rank := by
  have htwice : d * tenUp e * (2 * scale) = 2 * (d * tenUp e * scale) := by ring
  simp only [readsBack, compareHalf_eq, htwice, Nat.mul_comm _ (tenDown e)] at h
  generalize d * tenUp e * scale = num at h ⊢
  refine roundRank_eq (tenDown_pos e) hr ?_ ?_
  · split at h
    · next heven =>
      rw [Bool.and_eq_true, bne_iff_ne, bne_iff_ne, Nat.compare_ne_lt, Nat.compare_ne_gt] at h
      rcases Nat.lt_or_eq_of_le h.1 with hlt | heq
      · exact .inl hlt
      · exact .inr ⟨heq, heven⟩
    · rw [Bool.and_eq_true, beq_iff_eq, beq_iff_eq, Nat.compare_eq_gt] at h
      exact .inl h.1
  · split at h
    · next heven =>
      rw [Bool.and_eq_true, bne_iff_ne, bne_iff_ne, Nat.compare_ne_lt, Nat.compare_ne_gt] at h
      rcases Nat.lt_or_eq_of_le h.2 with hlt | heq
      · exact .inl hlt
      · exact .inr ⟨heq, heven⟩
    · rw [Bool.and_eq_true, beq_iff_eq, beq_iff_eq, Nat.compare_eq_lt] at h
      exact .inl h.2

/-! ## Digits are found -/

theorem readsBack_of_between (hlow : tenDown e * (units (rank - 1) + units rank) <
      2 * (d * (tenUp e * scale)))
    (hhigh : 2 * (d * (tenUp e * scale)) < tenDown e * (units rank + units (rank + 1))) :
    readsBack rank d e = true := by
  have htwice : d * tenUp e * (2 * scale) = 2 * (d * (tenUp e * scale)) := by ring
  simp only [readsBack, compareHalf_eq, htwice, Nat.mul_comm _ (tenDown e)]
  rw [Nat.compare_eq_gt.2 hlow, Nat.compare_eq_lt.2 hhigh]
  split <;> rfl

/-- The neighbours of a rank are more than the rank over half of ten to the sixteenth apart. -/
theorem twice_units_lt (hr : 0 < rank) :
    2 * units rank + 10 ^ 16 * units (rank - 1) < 10 ^ 16 * units (rank + 1) := by
  obtain ⟨e, m, hrank, hlt, hnormal, hunits, hnext⟩ := exists_mantissa rank
  have hpow := Nat.two_pow_pos e
  by_cases hm : m = 2 ^ 52
  · -- At a power of two the distance to the next rank is enough.
    have hprev : units (rank - 1) < units rank := units_strictMono (by omega)
    rw [hm] at hunits hnext
    rw [hunits] at hprev ⊢
    rw [hnext]
    omega
  · obtain ⟨e', m', hrank', hlt', hnormal', hunits', -⟩ := exists_mantissa (rank - 1)
    obtain ⟨rfl, hm'⟩ : e' = e ∧ m = m' + 1 := by omega
    rw [hunits, hnext, hunits', hm']
    have hsmall : m' * 2 ^ e' ≤ (2 ^ 53 - 2) * 2 ^ e' := Nat.mul_le_mul_right _ (by omega)
    rw [Nat.add_mul, Nat.add_mul, Nat.add_mul]
    omega

theorem gridBelow_eq (rank : Nat) (e : Int) :
    gridBelow rank e = units rank * tenDown e / (tenUp e * scale) := by
  unfold gridBelow tenUp tenDown
  split
  · rw [Nat.mul_one, Nat.mul_comm scale]
  · rw [Nat.one_mul]

/-- **A small enough power of ten has a multiple that reads back.** -/
theorem isSome_candidate? (hr : 0 < rank)
    (hsmall : tenUp e * scale * 10 ^ 16 ≤ units rank * tenDown e) :
    (candidate? rank e).isSome = true := by
  have hstep : 0 < tenUp e * scale := Nat.mul_pos (tenUp_pos e) scale_pos
  have hbelow := Nat.div_mul_le_self (units rank * tenDown e) (tenUp e * scale)
  have habove := Nat.lt_mul_of_div_lt (Nat.lt_succ_self (units rank * tenDown e / (tenUp e * scale)))
    hstep
  rw [← gridBelow_eq] at hbelow habove
  rw [Nat.succ_eq_add_one, Nat.add_mul] at habove
  have hneighbours : 2 * (units rank * tenDown e) + 10 ^ 16 * (units (rank - 1) * tenDown e) <
      10 ^ 16 * (units (rank + 1) * tenDown e) := by
    have hlt := Nat.mul_lt_mul_of_pos_right (twice_units_lt hr) (tenDown_pos e)
    rwa [Nat.add_mul, Nat.mul_assoc, Nat.mul_assoc, Nat.mul_assoc] at hlt
  have hprev : units (rank - 1) * tenDown e < units rank * tenDown e :=
    Nat.mul_lt_mul_of_pos_right (units_strictMono (by omega)) (tenDown_pos e)
  have hnext : units rank * tenDown e < units (rank + 1) * tenDown e :=
    Nat.mul_lt_mul_of_pos_right (units_lt_succ rank) (tenDown_pos e)
  -- Were neither multiple between the midpoints, the neighbours were only two steps apart.
  have hread : readsBack rank (gridBelow rank e) e = true ∨
      readsBack rank (gridBelow rank e + 1) e = true := by
    by_contra hneither
    have hlow : ¬ tenDown e * (units (rank - 1) + units rank) <
        2 * (gridBelow rank e * (tenUp e * scale)) := by
      intro hlow
      refine hneither (.inl (readsBack_of_between hlow ?_))
      rw [Nat.mul_add, Nat.mul_comm _ (units rank), Nat.mul_comm _ (units (rank + 1))]
      omega
    have hhigh : ¬ 2 * ((gridBelow rank e + 1) * (tenUp e * scale)) <
        tenDown e * (units rank + units (rank + 1)) := by
      intro hhigh
      refine hneither (.inr (readsBack_of_between ?_ hhigh))
      rw [Nat.mul_add, Nat.mul_comm _ (units rank), Nat.mul_comm _ (units (rank - 1)), Nat.add_mul]
      omega
    rw [Nat.mul_add, Nat.mul_comm _ (units rank), Nat.mul_comm _ (units (rank - 1))] at hlow
    rw [Nat.mul_add, Nat.mul_comm _ (units rank), Nat.mul_comm _ (units (rank + 1)),
      Nat.add_mul] at hhigh
    omega
  unfold candidate?
  dsimp only
  rcases hread with h | h
  · rw [h]
    cases readsBack rank (gridBelow rank e + 1) e <;> rfl
  · rw [h]
    cases readsBack rank (gridBelow rank e) e <;> rfl

theorem readsBack_of_candidate? (h : candidate? rank e = some d) : readsBack rank d e = true := by
  unfold candidate? at h
  dsimp only at h
  split at h
  · next hlow hhigh =>
    rw [← Option.some.inj h]
    split
    · exact hlow
    · exact hhigh
  · next hlow _ => exact Option.some.inj h ▸ hlow
  · next _ hhigh => exact Option.some.inj h ▸ hhigh
  · cases h

/-- The search ends at digits that read back if one of its tries has some. -/
theorem readsBack_shortest? {tries i : Nat} (hi : i < tries)
    (h : (candidate? rank (e - i)).isSome = true) :
    readsBack rank (shortest? rank tries e).1 (shortest? rank tries e).2 = true := by
  induction tries generalizing e i with
  | zero => exact absurd hi (Nat.not_lt_zero i)
  | succ tries ih =>
    rw [shortest?]
    split
    · next d hd => exact readsBack_of_candidate? hd
    · next hnone =>
      cases i with
      | zero =>
        rw [Int.natCast_zero, Int.sub_zero, hnone] at h
        cases h
      | succ i =>
        refine ih (Nat.lt_of_succ_lt_succ hi) ?_
        have hexponent : e - 1 - (i : Int) = e - ((i + 1 : Nat) : Int) := by omega
        rw [hexponent]
        exact h

/-- A number has at least the value of its first digit. -/
theorem pow_digitCount_le {n : Nat} (hn : 0 < n) : 10 ^ (digitCount n - 1) ≤ n := by
  by_cases hone : digitCount n - 1 = 0
  · rw [hone, Nat.pow_zero]
    exact hn
  · have hlength := Integer.length_digits_le_iff (n := n) (Nat.pos_of_ne_zero hone)
    have hcount : ¬ (Integer.digits n).length ≤ digitCount n - 1 := by
      rw [digitCount] at hone ⊢
      omega
    exact Nat.not_lt.1 fun hlt => hcount (hlength.2 hlt)

theorem digitCount_pos (n : Nat) : 0 < digitCount n :=
  List.length_pos_iff.2 (Integer.digits_ne_nil n)

/-- Sixteen places behind the first digit of a rank the power of ten is small enough. -/
theorem tenUp_firstExponent_le (hr : 0 < rank) :
    tenUp (firstExponent rank - 16) * scale * 10 ^ 16 ≤
      units rank * tenDown (firstExponent rank - 16) := by
  have hdigits : 0 < units rank * 10 ^ 330 / scale := by
    refine Nat.div_pos ?_ scale_pos
    have hten : scale ≤ 10 ^ 330 := by decide +kernel
    exact hten.trans (Nat.le_mul_of_pos_left _ (units_pos hr))
  have hfirst := (Nat.le_div_iff_mul_le scale_pos).1 (pow_digitCount_le hdigits)
  have hcount := digitCount_pos (units rank * 10 ^ 330 / scale)
  have hexponent : firstExponent rank - 16 =
      (-346 : Int) + (digitCount (units rank * 10 ^ 330 / scale) - 1 : Nat) := by
    unfold firstExponent
    omega
  have hten := tenUp_add (-346) (digitCount (units rank * 10 ^ 330 / scale) - 1)
  rw [← hexponent] at hten
  generalize digitCount (units rank * 10 ^ 330 / scale) - 1 = k at hten hfirst
  generalize firstExponent rank - 16 = e at hten
  have hup : tenUp (-346) = 1 := rfl
  have hdown : tenDown (-346) = 10 ^ 330 * 10 ^ 16 := by decide +kernel
  rw [hup, hdown, Nat.mul_one] at hten
  refine Nat.le_of_mul_le_mul_left ?_ (Nat.pow_pos (n := 330) (show 0 < 10 by decide))
  calc 10 ^ 330 * (tenUp e * scale * 10 ^ 16) = tenUp e * (10 ^ 330 * 10 ^ 16) * scale := by
        rw [Nat.mul_right_comm (tenUp e), ← Nat.mul_assoc, Nat.mul_left_comm, Nat.mul_assoc]
    _ = 10 ^ k * scale * tenDown e := by rw [hten, Nat.mul_right_comm]
    _ ≤ units rank * 10 ^ 330 * tenDown e := Nat.mul_le_mul_right _ hfirst
    _ = 10 ^ 330 * (units rank * tenDown e) := by
        rw [Nat.mul_comm (units rank), Nat.mul_assoc]

/-! ## Zeros at the end -/

theorem compare_mul_right (hk : 0 < k) (a b : Nat) : compare (a * k) (b * k) = compare a b := by
  rw [← cmp_eq_compare, ← cmp_eq_compare, cmp_mul_pos_right hk]

theorem compareHalf_mul (d k : Nat) (e : Int) (halves : Nat) :
    compareHalf (d * 10 ^ k) e halves = compareHalf d (e + k) halves := by
  rw [compareHalf_eq, compareHalf_eq]
  have hleft : d * 10 ^ k * tenUp e * (2 * scale) * tenDown (e + k) =
      d * tenUp (e + k) * (2 * scale) * tenDown e := by
    calc d * 10 ^ k * tenUp e * (2 * scale) * tenDown (e + k)
        = d * (2 * scale) * (10 ^ k * tenUp e * tenDown (e + k)) := by ring
      _ = d * (2 * scale) * (tenUp (e + k) * tenDown e) := by rw [tenUp_add]
      _ = d * tenUp (e + k) * (2 * scale) * tenDown e := by ring
  calc compare (d * 10 ^ k * tenUp e * (2 * scale)) (halves * tenDown e)
      = compare (d * tenUp (e + k) * (2 * scale) * tenDown e)
          (halves * tenDown e * tenDown (e + k)) := by
        rw [← hleft, compare_mul_right (tenDown_pos (e + k))]
    _ = compare (d * tenUp (e + k) * (2 * scale)) (halves * tenDown (e + k)) := by
        rw [Nat.mul_right_comm halves, compare_mul_right (tenDown_pos e)]

theorem stripZeros_spec (fuel n : Nat) (e : Int) :
    ∃ k : Nat, n = (stripZeros fuel n e).1 * 10 ^ k ∧ (stripZeros fuel n e).2 = e + k := by
  induction fuel generalizing n e with
  | zero => exact ⟨0, (Nat.mul_one n).symm, (Int.add_zero e).symm⟩
  | succ fuel ih =>
    rw [stripZeros]
    split
    · next hzero =>
      obtain ⟨k, hn, he⟩ := ih (n / 10) (e + 1)
      refine ⟨k + 1, ?_, ?_⟩
      · rw [Nat.pow_succ, ← Nat.mul_assoc, ← hn]
        omega
      · rw [he]
        omega
    · exact ⟨0, (Nat.mul_one n).symm, (Int.add_zero e).symm⟩

theorem readsBack_stripZeros (fuel : Nat) (h : readsBack rank d e = true) :
    readsBack rank (stripZeros fuel d e).1 (stripZeros fuel d e).2 = true := by
  obtain ⟨k, hd, he⟩ := stripZeros_spec fuel d e
  rw [hd] at h
  rw [he]
  simp only [readsBack, compareHalf_mul] at h ⊢
  exact h

theorem readsBack_shortestDigits (hr : 0 < rank) :
    readsBack rank (shortestDigits rank).1 (shortestDigits rank).2 = true := by
  have hlast := isSome_candidate? hr (tenUp_firstExponent_le hr)
  have hfound := readsBack_shortest? (show 16 < 17 by decide) hlast
  exact readsBack_stripZeros _ hfound

/-! ## Reading -/

/-- Digits that read back as a positive rank are not far below one half of the least double and not
far above the greatest. -/
theorem bounds_of_readsBack (hr : 0 < rank) (hfinite : rank < ranks)
    (h : readsBack rank d e = true) :
    tenDown e ≤ 2 * (d * tenUp e * scale) ∧ d * tenUp e ≤ 2 ^ 1024 * tenDown e := by
  have htwice : d * tenUp e * (2 * scale) = 2 * (d * tenUp e * scale) := by ring
  have hbounds : (units (rank - 1) + units rank) * tenDown e ≤ 2 * (d * tenUp e * scale) ∧
      2 * (d * tenUp e * scale) ≤ (units rank + units (rank + 1)) * tenDown e := by
    simp only [readsBack, compareHalf_eq, htwice] at h
    split at h
    · rw [Bool.and_eq_true, bne_iff_ne, bne_iff_ne, Nat.compare_ne_lt, Nat.compare_ne_gt] at h
      exact h
    · rw [Bool.and_eq_true, beq_iff_eq, beq_iff_eq, Nat.compare_eq_gt, Nat.compare_eq_lt] at h
      exact ⟨Nat.le_of_lt h.1, Nat.le_of_lt h.2⟩
  have hone : 1 ≤ units (rank - 1) + units rank := (units_pos hr).trans_le (Nat.le_add_left _ _)
  refine ⟨?_, ?_⟩
  · calc tenDown e = 1 * tenDown e := (Nat.one_mul _).symm
      _ ≤ (units (rank - 1) + units rank) * tenDown e := Nat.mul_le_mul_right _ hone
      _ ≤ 2 * (d * tenUp e * scale) := hbounds.1
  · have htop : units ranks = 2 ^ 1024 * scale := by decide +kernel
    have hsum : units rank + units (rank + 1) ≤ 2 * (2 ^ 1024 * scale) := by
      have hnext : units (rank + 1) ≤ units ranks := units_strictMono.monotone hfinite
      have hself : units rank ≤ units ranks := units_strictMono.monotone (Nat.le_of_lt hfinite)
      rw [htop] at hnext hself
      omega
    have hle : 2 * (d * tenUp e * scale) ≤ 2 * (2 ^ 1024 * tenDown e * scale) := by
      calc 2 * (d * tenUp e * scale) ≤ (units rank + units (rank + 1)) * tenDown e := hbounds.2
        _ ≤ 2 * (2 ^ 1024 * scale) * tenDown e := Nat.mul_le_mul_right _ hsum
        _ = 2 * (2 ^ 1024 * tenDown e * scale) := by
          rw [Nat.mul_assoc, Nat.mul_right_comm (2 ^ 1024)]
    have hhalf : d * tenUp e * scale ≤ 2 ^ 1024 * tenDown e * scale :=
      Nat.le_of_mul_le_mul_left hle Nat.two_pos
    exact Nat.le_of_mul_le_mul_right hhalf scale_pos

theorem digits_pos_of_readsBack (hr : 0 < rank) (hfinite : rank < ranks)
    (h : readsBack rank d e = true) : 0 < d := by
  obtain ⟨hlow, -⟩ := bounds_of_readsBack hr hfinite h
  have hdown := tenDown_pos e
  rw [Nat.pos_iff_ne_zero]
  rintro rfl
  rw [Nat.zero_mul, Nat.zero_mul] at hlow
  omega

/-- Were the first digit further behind the point, the number would be below the least double. -/
theorem le_adjusted_of_readsBack (hr : 0 < rank) (hfinite : rank < ranks)
    (h : readsBack rank d e = true) : -400 ≤ adjusted d e := by
  by_contra hfar
  unfold adjusted at hfar
  obtain ⟨hlow, -⟩ := bounds_of_readsBack hr hfinite h
  have hlt : d < 10 ^ digitCount d :=
    (Integer.length_digits_le_iff (digitCount_pos d)).1 (Nat.le_refl _)
  have hneg : ¬ 0 ≤ e + (digitCount d : Int) := by omega
  have hplaces : 400 ≤ (e + (digitCount d : Int)).natAbs := by omega
  have hpow : 2 * scale ≤ tenDown (e + digitCount d) := by
    calc 2 * scale ≤ 10 ^ 400 := by decide +kernel
      _ ≤ 10 ^ (e + (digitCount d : Int)).natAbs := Nat.pow_le_pow_right (by decide) hplaces
      _ = tenDown (e + digitCount d) := (if_neg hneg).symm
  have hten := tenUp_add e (digitCount d)
  rw [show tenUp (e + digitCount d) = 1 from if_neg hneg, Nat.one_mul] at hten
  have hless : tenDown e < tenDown e := by
    calc tenDown e ≤ 2 * (d * tenUp e * scale) := hlow
      _ = d * (tenUp e * (2 * scale)) := by ring
      _ < 10 ^ digitCount d * (tenUp e * (2 * scale)) :=
        Nat.mul_lt_mul_of_pos_right hlt
          (Nat.mul_pos (tenUp_pos e) (Nat.mul_pos Nat.two_pos scale_pos))
      _ ≤ 10 ^ digitCount d * (tenUp e * tenDown (e + digitCount d)) :=
        Nat.mul_le_mul_left _ (Nat.mul_le_mul_left _ hpow)
      _ = tenDown e := by rw [hten, Nat.mul_assoc]
  exact Nat.lt_irrefl _ hless

/-- Were the first digit further before the point, the number would be above the greatest double. -/
theorem adjusted_le_of_readsBack (hr : 0 < rank) (hfinite : rank < ranks)
    (h : readsBack rank d e = true) : adjusted d e ≤ 400 := by
  by_contra hfar
  unfold adjusted at hfar
  obtain ⟨-, hhigh⟩ := bounds_of_readsBack hr hfinite h
  have hcount := digitCount_pos d
  have hpos : 0 ≤ e + ((digitCount d - 1 : Nat) : Int) := by omega
  have hplaces : 400 ≤ (e + ((digitCount d - 1 : Nat) : Int)).natAbs := by omega
  have hpow : 2 ^ 1024 < tenUp (e + (digitCount d - 1 : Nat)) := by
    calc 2 ^ 1024 < 10 ^ 400 := by decide +kernel
      _ ≤ 10 ^ (e + ((digitCount d - 1 : Nat) : Int)).natAbs :=
        Nat.pow_le_pow_right (by decide) hplaces
      _ = tenUp (e + (digitCount d - 1 : Nat)) := (if_pos hpos).symm
  have hten := tenUp_add e (digitCount d - 1)
  rw [show tenDown (e + (digitCount d - 1 : Nat)) = 1 from if_pos hpos, Nat.mul_one] at hten
  have hless : 2 ^ 1024 * tenDown e < 2 ^ 1024 * tenDown e := by
    calc 2 ^ 1024 * tenDown e < tenUp (e + (digitCount d - 1 : Nat)) * tenDown e :=
          Nat.mul_lt_mul_of_pos_right hpow (tenDown_pos e)
      _ = 10 ^ (digitCount d - 1) * tenUp e := hten
      _ ≤ d * tenUp e :=
        Nat.mul_le_mul_right _ (pow_digitCount_le (digits_pos_of_readsBack hr hfinite h))
      _ ≤ 2 ^ 1024 * tenDown e := hhigh
  exact Nat.lt_irrefl _ hless

/-- **Digits that read back as a rank are read as it.** -/
theorem ofScientific_of_readsBack (hr : 0 < rank) (hfinite : rank < 2047 * 2 ^ 52)
    (h : readsBack rank d e = true) (negative : Bool) :
    ofScientific negative d e = .finite negative rank hfinite := by
  have hd := digits_pos_of_readsBack hr hfinite h
  have hlow := le_adjusted_of_readsBack hr hfinite h
  have hhigh := adjusted_le_of_readsBack hr hfinite h
  have hround := roundRank_of_readsBack hr h
  have hnone : ¬ (d = 0 ∨ adjusted d e < -400) := by omega
  have hsome : ¬ 400 < adjusted d e := by omega
  unfold ofScientific
  dsimp only
  simp only [Bool.or_eq_true, decide_eq_true_eq]
  rw [if_neg hnone, if_neg hsome]
  unfold tenUp tenDown at hround
  unfold round
  split
  · next he =>
    rw [if_pos he, if_pos he] at hround
    rw [hround, ofRank, dif_pos hfinite]
  · next he =>
    rw [if_neg he, if_neg he, Nat.mul_one] at hround
    rw [hround, ofRank, dif_pos hfinite]

/-- **The shortest digits of a double are read as the double.** -/
theorem ofScientific_shortestDigits (hr : 0 < rank) (hfinite : rank < 2047 * 2 ^ 52)
    (negative : Bool) :
    ofScientific negative (shortestDigits rank).1 (shortestDigits rank).2 =
      .finite negative rank hfinite :=
  ofScientific_of_readsBack hr hfinite (readsBack_shortestDigits hr) negative

end Stencil.Double
