import Stencil.Proofs.Coercion.Failure
import Stencil.Proofs.Coercion.RoundTrip
import Stencil.Proofs.Number.Integral

/-!
# Decimals as integers

A decimal becomes an integer exactly if it stands for that integer and the integer has a finite
double nearest to it, because whether a decimal is finite is asked of its double (`Converts`). So an
integral decimal from `Double.overflowBound` on is refused like a fraction or an infinity
(`not_converted_integral`), and a signalling not-a-number, which has no double, is not even refused.

Integers that can be written reach their decimals, and come back from them below the same bound.

Main result: `coerce_integer_decimal`.
-/

namespace Stencil.Coercion

variable {d : Decimal} {m : Int}

/-- The decimal stands for the integer, and the integer has a finite double nearest to it. -/
def Converts (d : Decimal) (m : Int) : Prop :=
  d.value? = some (m : ℚ) ∧ m.natAbs < Double.overflowBound

theorem Converts.exists_double (h : Converts d m) :
    ∃ x, Double.ofDecimal? d = some x ∧ x.isFinite = true :=
  (Double.isFinite_ofDecimal?_iff h.1).2 h.2

theorem Converts.ne_signaling (h : Converts d m) (negative : Bool) (payload : Nat) :
    d ≠ .nan negative true payload := by
  rintro rfl
  cases h.1

theorem converts_iff {x : Double} (hx : Double.ofDecimal? d = some x) :
    Converts d m ↔ (if x.isFinite then d.toInt? else none) = some m := by
  constructor
  · intro h
    obtain ⟨y, hy, hfinite⟩ := h.exists_double
    rw [hx] at hy
    cases hy
    rw [if_pos hfinite, Decimal.toInt?_eq_some_iff.2 h.1]
  · intro h
    split at h
    · next hfinite =>
      have hvalue := Decimal.toInt?_eq_some_iff.1 h
      exact ⟨hvalue, (Double.isFinite_ofDecimal?_iff hvalue).1 ⟨x, hx, hfinite⟩⟩
    · cases h

theorem refuse_ne_ok {α : Type} {v : Value} {s : Shape} {reason : String} {a : α} :
    refuse v s reason ≠ .ok a := by
  unfold refuse
  split <;> simp

theorem toInteger_decimal_iff : toInteger (.decimal d) = .ok m ↔ Converts d m := by
  rw [toInteger]
  split
  · next hx =>
    refine iff_of_false (by simp) fun h => ?_
    obtain ⟨x, hx', -⟩ := h.exists_double
    rw [hx] at hx'
    cases hx'
  · next x hx =>
    rw [converts_iff hx]
    split
    · next n hn => rw [hn, Except.ok.injEq, Option.some_inj]
    · next hnone => exact iff_of_false refuse_ne_ok (by rw [hnone]; simp)

theorem converted_iff {w : Value} :
    coerce .integer (.decimal d) = .ok w ↔ ∃ m : Int, w = .int m ∧ Converts d m := by
  rw [coerce_integer (by simp), map_eq_ok_iff]
  constructor
  · rintro ⟨m, hm, rfl⟩
    exact ⟨m, rfl, toInteger_decimal_iff.1 hm⟩
  · rintro ⟨m, rfl, hm⟩
    exact ⟨m, toInteger_decimal_iff.2 hm, rfl⟩

/-- The decimal of an integer stands for the integer. -/
theorem converts_ofInt {n : Int} : Converts (.ofInt n) m ↔ n = m ∧ n.natAbs < Double.overflowBound := by
  rw [Converts, Decimal.ofInt, Decimal.value?, Integer.signed_natAbs, zpow_zero, mul_one,
    Option.some_inj, Int.cast_inj]
  constructor
  · rintro ⟨rfl, hbound⟩
    exact ⟨rfl, hbound⟩
  · rintro ⟨rfl, hbound⟩
    exact ⟨rfl, hbound⟩

/-- The error of its own is that of the signalling not-a-numbers. -/
theorem signalingNaN_iff : coerce .integer (.decimal d) = .error .signalingNaN ↔
    ∃ negative payload, d = .nan negative true payload := by
  have hending := coerce_ending .integer (.decimal d)
  generalize hx : coerce .integer (.decimal d) = x at hending
  cases hending with
  | value w h =>
    obtain ⟨m, -, hm⟩ := converted_iff.1 hx
    refine iff_of_false (by simp) ?_
    rintro ⟨negative, payload, hd⟩
    exact hm.ne_signaling negative payload hd
  | refused e _ _ h =>
    refine iff_of_false (by simp) ?_
    rintro ⟨negative, payload, rfl⟩
    exact h.2.2 ⟨.inl rfl, negative, payload, rfl⟩
  | oversizedInteger h => simp [Unwritable, Value.holdsOversized] at h
  | beyondDouble h => simp [BeyondDouble] at h
  | signalingNaN h => exact iff_of_true rfl (by simpa using h.2)

/-- A decimal that stands for no integer below the bound is refused, unless it is a signalling
not-a-number. -/
theorem refused_iff : (∃ e, coerce .integer (.decimal d) = .error (.refused e) ∧
      e.value = .decimal d ∧ e.shape = Shape.integer.name) ↔
    (∀ negative payload, d ≠ .nan negative true payload) ∧ ∀ m, ¬ Converts d m := by
  have hsignaling := signalingNaN_iff (d := d)
  have hending := coerce_ending .integer (.decimal d)
  generalize hx : coerce .integer (.decimal d) = x at hending hsignaling
  cases hending with
  | value w h =>
    obtain ⟨m, -, hm⟩ := converted_iff.1 hx
    refine iff_of_false (by simp) ?_
    rintro ⟨-, hnone⟩
    exact hnone m hm
  | refused e hvalue hshape h =>
    refine iff_of_true ⟨e, rfl, hvalue, hshape⟩ ⟨?_, ?_⟩
    · intro negative payload hd
      cases hsignaling.2 ⟨negative, payload, hd⟩
    · intro m hm
      cases hx.symm.trans (converted_iff.2 ⟨m, rfl, hm⟩)
  | oversizedInteger h => simp [Unwritable, Value.holdsOversized] at h
  | beyondDouble h => simp [BeyondDouble] at h
  | signalingNaN h =>
    obtain ⟨negative, payload, hd⟩ := hsignaling.1 rfl
    refine iff_of_false (by simp) ?_
    rintro ⟨hquiet, -⟩
    exact hquiet negative payload hd

/-- An integer that can be written comes back from its decimal exactly below the bound. -/
theorem exists_decimal (n : Int) (hn : (Integer.digits n.natAbs).length ≤ Integer.digitLimit) :
    ∃ d' : Decimal, coerce .decimal (.int n) = .ok (.decimal d') ∧
      (coerce .integer (.decimal d') = .ok (.int n) ↔ n.natAbs < Double.overflowBound) := by
  refine ⟨.ofInt n, coerce_decimal_int (isWritable_of_length hn), ?_⟩
  simp [converted_iff, converts_ofInt]

/-- **Decimals as integers.** A decimal becomes an integer exactly if it stands for that integer and
the integer is below the bound in size; a signalling not-a-number is an error of its own; every
other decimal is refused, with itself and the shape in the error. An integer of at most as many
digits as decimal text may have becomes a decimal, and the integer again exactly below the bound. -/
theorem coerce_integer_decimal (d : Decimal) :
    (∀ w, coerce .integer (.decimal d) = .ok w ↔
      ∃ m : Int, w = .int m ∧ d.value? = some (m : ℚ) ∧ m.natAbs < Double.overflowBound) ∧
      (coerce .integer (.decimal d) = .error .signalingNaN ↔
        ∃ negative payload, d = .nan negative true payload) ∧
      ((∃ e, coerce .integer (.decimal d) = .error (.refused e) ∧ e.value = .decimal d ∧
          e.shape = Shape.integer.name) ↔
        (∀ negative payload, d ≠ .nan negative true payload) ∧
          ∀ m : Int, d.value? = some (m : ℚ) → Double.overflowBound ≤ m.natAbs) ∧
      ∀ n : Int, (Integer.digits n.natAbs).length ≤ Integer.digitLimit → ∃ d' : Decimal,
        coerce .decimal (.int n) = .ok (.decimal d') ∧
          (coerce .integer (.decimal d') = .ok (.int n) ↔ n.natAbs < Double.overflowBound) := by
  have hconverts : (∀ m : Int, d.value? = some (m : ℚ) → Double.overflowBound ≤ m.natAbs) ↔
      ∀ m, ¬ Converts d m := by
    simp only [Converts, not_and, Nat.not_lt]
  rw [hconverts]
  exact ⟨fun w => converted_iff, signalingNaN_iff, refused_iff, exists_decimal⟩

/-- The three hundredth power of ten there and back, twelve with a zero behind the point, and a
fraction. -/
theorem coerce_integer_decimal_below :
    let n : Int := (10 ^ 300 : Nat)
    (Integer.digits n.natAbs).length ≤ Integer.digitLimit ∧
      (∃ d, coerce .decimal (.int n) = .ok (.decimal d) ∧
        coerce .integer (.decimal d) = .ok (.int n)) ∧
      coerce .integer (.decimal (.finite false 120 (-1))) = .ok (.int 12) ∧
      ∀ w, coerce .integer (.decimal (.finite false 125 (-1))) ≠ .ok w := by
  intro n
  have hlength : (Integer.digits n.natAbs).length ≤ Integer.digitLimit := by decide +kernel
  have htwelve : (Decimal.finite false 120 (-1)).toInt? = some 12 := by decide +kernel
  have hfraction : (Decimal.finite false 125 (-1)).toInt? = none := by decide +kernel
  obtain ⟨hconverted, -, -, hround⟩ := coerce_integer_decimal (.finite false 120 (-1))
  obtain ⟨d, hd, hback⟩ := hround n hlength
  refine ⟨hlength, ⟨d, hd, hback.2 (by decide +kernel)⟩, ?_, fun w hw => ?_⟩
  · exact (hconverted _).2 ⟨12, rfl, Decimal.toInt?_eq_some_iff.1 htwelve, by decide +kernel⟩
  · obtain ⟨m, -, hvalue, -⟩ := ((coerce_integer_decimal (.finite false 125 (-1))).1 w).1 hw
    rw [Decimal.toInt?_eq_some_iff.2 hvalue] at hfraction
    cases hfraction

/-- The four hundredth power of ten is a finite decimal and an integer, and is refused. -/
theorem not_converted_integral :
    ¬ ∀ (d : Decimal) (m : Int), d.value? = some (m : ℚ) →
      coerce .integer (.decimal d) = .ok (.int m) := by
  intro h
  have hvalue : (Decimal.finite false 1 400).toInt? = some ((10 ^ 400 : Nat) : Int) := by
    decide +kernel
  obtain ⟨m, heq, hm⟩ := converted_iff.1 (h _ _ (Decimal.toInt?_eq_some_iff.1 hvalue))
  rw [Value.int.injEq] at heq
  subst heq
  exact absurd hm.2 (by decide +kernel)

end Stencil.Coercion
