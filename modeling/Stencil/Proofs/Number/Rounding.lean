import Stencil.Proofs.Number.Overflow

/-!
# What rounds to a rank

The sizes of ranks grow with the rank, in steps that are powers of two (`exists_mantissa`), and the
rank below a size is the greatest one that is no larger (`rankBelow_spec`). So a quotient rounds to a
rank exactly if it lies between the midpoints to the two neighbours, which belong to the rank if it
is even (`roundRank_eq`), and only the quotient counts (`roundRank_congr`).
-/

namespace Stencil.Double

variable {r a b num den : Nat}

/-! ## The sizes of ranks -/

/-- A rank is a mantissa times a power of two, and the next one is a step of that power further. -/
theorem exists_mantissa (r : Nat) :
    ∃ e m, r = e * 2 ^ 52 + m ∧ m < 2 ^ 53 ∧ (e = 0 ∨ 2 ^ 52 ≤ m) ∧
      units r = m * 2 ^ e ∧ units (r + 1) = (m + 1) * 2 ^ e := by
  have hunits : ∀ e m, m < 2 ^ 53 → (e = 0 ∨ 2 ^ 52 ≤ m) → units (e * 2 ^ 52 + m) = m * 2 ^ e := by
    intro e m hlt hnormal
    by_cases he : e = 0
    · subst he
      rw [Nat.zero_mul, Nat.zero_add, units_of_lt hlt, Nat.pow_zero, Nat.mul_one]
    · exact units_of_mantissa (Nat.pos_of_ne_zero he) (hnormal.resolve_left he) hlt
  obtain ⟨e, m, hr, hlt, hnormal⟩ :
      ∃ e m, r = e * 2 ^ 52 + m ∧ m < 2 ^ 53 ∧ (e = 0 ∨ 2 ^ 52 ≤ m) := by
    by_cases hsmall : r < 2 ^ 53
    · exact ⟨0, r, by omega, hsmall, .inl rfl⟩
    · exact ⟨r / 2 ^ 52 - 1, 2 ^ 52 + r % 2 ^ 52, by omega, by omega, .inr (by omega)⟩
  refine ⟨e, m, hr, hlt, hnormal, by rw [hr, hunits e m hlt hnormal], ?_⟩
  by_cases hlast : m + 1 < 2 ^ 53
  · rw [hr, Nat.add_assoc, hunits e (m + 1) hlast (by omega)]
  · -- Behind the last mantissa the first of the next power comes.
    have hm : m + 1 = 2 ^ 53 := by omega
    have hnext : r + 1 = (e + 1) * 2 ^ 52 + 2 ^ 52 := by omega
    rw [hnext, hunits (e + 1) (2 ^ 52) (by decide) (.inr (Nat.le_refl _)), hm, Nat.pow_succ 2 e]
    ring

theorem units_lt_succ (r : Nat) : units r < units (r + 1) := by
  obtain ⟨e, m, -, -, -, hr, hnext⟩ := exists_mantissa r
  rw [hr, hnext]
  exact Nat.mul_lt_mul_of_pos_right (Nat.lt_succ_self m) (Nat.two_pow_pos e)

theorem units_strictMono : StrictMono units := strictMono_nat_of_lt_succ units_lt_succ

theorem units_pos (h : 0 < r) : 0 < units r :=
  Nat.lt_of_le_of_lt (Nat.zero_le _) (units_strictMono h)

/-- The rank below a size is the greatest one that is no larger. -/
theorem rankBelow_spec (size : Nat) :
    units (rankBelow size) ≤ size ∧ size < units (rankBelow size + 1) := by
  by_cases hsmall : size < 2 ^ 53
  · rw [rankBelow, if_pos hsmall]
    have hlt := units_lt_succ size
    rw [units_of_lt hsmall] at hlt ⊢
    exact ⟨Nat.le_refl _, hlt⟩
  · obtain ⟨e, hle, hlt⟩ := exists_exponent (Nat.not_lt.1 hsmall)
    have hlow := le_mantissa hle
    have hhigh := mantissa_lt hlt
    have he : 1 ≤ e := by
      rw [Nat.one_le_iff_ne_zero]
      rintro rfl
      exact hsmall hlt
    rw [rankBelow_eq (Nat.not_lt.1 hsmall) hle hlt]
    obtain ⟨e', m', hr, hm', hnormal, hunits, hnext⟩ := exists_mantissa (e * 2 ^ 52 + size / 2 ^ e)
    obtain ⟨rfl, rfl⟩ : e' = e ∧ m' = size / 2 ^ e := by
      generalize size / 2 ^ e = m at *
      omega
    rw [hunits, hnext]
    exact ⟨Nat.div_mul_le_self size _, Nat.lt_mul_of_div_lt (Nat.lt_succ_self _) (Nat.two_pow_pos _)⟩

/-! ## Rounding quotients -/

/-- A quotient between the midpoints of a rank to its neighbours rounds to the rank. -/
theorem roundRank_eq (hden : 0 < den) (hr : 0 < r)
    (hlow : den * (units (r - 1) + units r) < 2 * num ∨
      den * (units (r - 1) + units r) = 2 * num ∧ r % 2 = 0)
    (hhigh : 2 * num < den * (units r + units (r + 1)) ∨
      2 * num = den * (units r + units (r + 1)) ∧ r % 2 = 0) :
    roundRank num den = r := by
  obtain ⟨hbelow, habove⟩ := rankBelow_spec (num / den)
  rw [Nat.le_div_iff_mul_le hden, Nat.mul_comm] at hbelow
  rw [Nat.div_lt_iff_lt_mul hden, Nat.mul_comm] at habove
  have hmul : ∀ a b : Nat, a < b → den * a < den * b := fun a b h => Nat.mul_lt_mul_of_pos_left h hden
  have hprev : den * units (r - 1) < den * units r := hmul _ _ (units_strictMono (by omega))
  have hnext : den * units r < den * units (r + 1) := hmul _ _ (units_lt_succ r)
  rw [Nat.mul_add] at hlow hhigh
  have hle : rankBelow (num / den) ≤ r := by
    have hlt : den * units (rankBelow (num / den)) < den * units (r + 1) := by omega
    exact Nat.lt_succ_iff.1 (units_strictMono.lt_iff_lt.1 (Nat.lt_of_mul_lt_mul_left hlt))
  have hge : r - 1 ≤ rankBelow (num / den) := by
    have hlt : den * units (r - 1) < den * units (rankBelow (num / den) + 1) := by omega
    exact Nat.lt_succ_iff.1 (units_strictMono.lt_iff_lt.1 (Nat.lt_of_mul_lt_mul_left hlt))
  unfold roundRank
  dsimp only
  rcases Nat.lt_or_eq_of_le hle with hlt | heq
  · have heq : rankBelow (num / den) = r - 1 := by omega
    have hsucc : r - 1 + 1 = r := by omega
    rw [heq, hsucc, Nat.mul_add, if_neg]
    simp only [Bool.or_eq_true, decide_eq_true_eq, Bool.and_eq_true, beq_iff_eq]
    omega
  · rw [heq, Nat.mul_add, if_pos]
    simp only [Bool.or_eq_true, decide_eq_true_eq, Bool.and_eq_true, beq_iff_eq]
    omega

theorem roundRank_mul {k : Nat} (hk : 0 < k) (num den : Nat) :
    roundRank (k * num) (k * den) = roundRank num den := by
  have hmiddle : ∀ a b : Nat, k * den * (a + b) = k * (den * (a + b)) := fun a b => Nat.mul_assoc ..
  have htwice : 2 * (k * num) = k * (2 * num) := Nat.mul_left_comm ..
  have hlt : ∀ a b : Nat, decide (k * a < k * b) = decide (a < b) := by
    intro a b
    rw [decide_eq_decide]
    exact Nat.mul_lt_mul_left hk
  have heq : ∀ a b : Nat, (k * a == k * b) = (a == b) := by
    intro a b
    rw [Bool.eq_iff_iff, beq_iff_eq, beq_iff_eq]
    exact Nat.mul_left_cancel_iff hk
  unfold roundRank
  rw [Nat.mul_div_mul_left _ _ hk]
  dsimp only
  rw [hmiddle, htwice]
  rw [hlt, heq]

/-- Only the quotient counts. -/
theorem roundRank_congr (ha : 0 < a) (hb : 0 < b) {num' : Nat} (h : num * b = num' * a) :
    roundRank num a = roundRank num' b := by
  rw [← roundRank_mul hb num a, ← roundRank_mul ha num' b, Nat.mul_comm b num, h,
    Nat.mul_comm num' a, Nat.mul_comm b a]

end Stencil.Double
