import Stencil.Proofs.Coercion.Typed
import Stencil.Proofs.Number.Overflow
import Stencil.Proofs.Value.Writable

/-!
# How coercion can fail

Bringing a value into a shape gives a value, or refuses: the refusal carries the value and names the
shape. Three things hinder it, and then it ends in neither way.

**Oversized integers** (`Unwritable`). A shape that writes a value out, or that refuses it and would
have to show it, fails on every value that holds an integer past the limit of decimal text.

**Large integers** (`BeyondDouble`). An integer from `Double.overflowBound` on is no float.

**Signalling not-a-numbers** (`Signaling`) are neither integers nor floats.

These are all the hindrances, and each of them has an error of its own (`Ending`).

Main result: `coerce_settles_iff`.
-/

namespace Stencil

/-- The shape takes the value without writing it out. -/
def Shape.takesUnwritten : Shape → Value → Bool
  | any, _ | list, _ => true
  | integer, .int _ | float, .int _ => true
  | document, .document _ => true
  | _, _ => false

namespace Coercion

/-- The value would have to be written out and holds an integer that cannot be. -/
def Unwritable (s : Shape) (v : Value) : Prop :=
  v.holdsOversized = true ∧ s.takesUnwritten v = false

/-- An integer past the greatest double is to be a float. -/
def BeyondDouble (s : Shape) (v : Value) : Prop :=
  s = .float ∧ ∃ n, v = .int n ∧ Double.overflowBound ≤ n.natAbs

/-- A signalling not-a-number is to be an integer or a float. -/
def Signaling (s : Shape) (v : Value) : Prop :=
  (s = .integer ∨ s = .float) ∧ ∃ negative payload, v = .decimal (.nan negative true payload)

/-- Nothing hinders the coercion. -/
def Unhindered (s : Shape) (v : Value) : Prop :=
  ¬ Unwritable s v ∧ ¬ BeyondDouble s v ∧ ¬ Signaling s v

/-- How bringing a value into a shape may end. -/
inductive Ending (s : Shape) (v : Value) {α : Type} : Except CoercionError α → Prop
  | value (a : α) (h : Unhindered s v) : Ending s v (.ok a)
  | refused (e : ConversionError) (hvalue : e.value = v) (hshape : e.shape = s.name)
      (h : Unhindered s v) : Ending s v (.error (.refused e))
  | oversizedInteger (h : Unwritable s v) : Ending s v (.error .oversizedInteger)
  | beyondDouble (h : BeyondDouble s v) : Ending s v (.error .beyondDouble)
  | signalingNaN (h : Signaling s v) : Ending s v (.error .signalingNaN)

/-- It gives a value, or refuses the value for the shape. -/
def Settles (s : Shape) (v : Value) : Prop :=
  (∃ w, coerce s v = .ok w) ∨
    ∃ e, coerce s v = .error (.refused e) ∧ e.value = v ∧ e.shape = s.name

variable {s : Shape} {v : Value} {α β : Type}

theorem Ending.map {x : Except CoercionError α} (h : Ending s v x) (f : α → β) :
    Ending s v (x.map f) := by
  cases h with
  | value a h => exact .value (f a) h
  | refused e hvalue hshape h => exact .refused e hvalue hshape h
  | oversizedInteger h => exact .oversizedInteger h
  | beyondDouble h => exact .beyondDouble h
  | signalingNaN h => exact .signalingNaN h

/-! ## Hindrances -/

/-- A value that is no number is hindered by oversized integers only. -/
theorem unhindered_of_not_oversized (hv : v.holdsOversized = false) (hint : ∀ n, v ≠ .int n)
    (hdecimal : ∀ d, v ≠ .decimal d) : Unhindered s v := by
  refine ⟨?_, ?_, ?_⟩
  · rintro ⟨h, -⟩
    rw [hv] at h
    cases h
  · rintro ⟨-, n, h, -⟩
    exact hint n h
  · rintro ⟨-, _, _, h⟩
    exact hdecimal _ h

/-- A shape that is no number is hindered by oversized integers only. -/
theorem unhindered_of_writable (hi : s ≠ .integer) (hf : s ≠ .float)
    (hw : v.holdsOversized = true → s.takesUnwritten v = true) : Unhindered s v := by
  refine ⟨?_, fun h => hf h.1, fun h => h.1.elim hi hf⟩
  rintro ⟨ho, ht⟩
  rw [hw ho] at ht
  cases ht

theorem unhindered_text (t : String) : Unhindered s (.text t) :=
  unhindered_of_not_oversized (by simp [Value.holdsOversized]) (by simp) (by simp)

theorem unhindered_bool (b : Bool) : Unhindered s (.bool b) :=
  unhindered_of_not_oversized (by simp [Value.holdsOversized]) (by simp) (by simp)

theorem unhindered_float (x : Double) : Unhindered s (.float x) :=
  unhindered_of_not_oversized (by simp [Value.holdsOversized]) (by simp) (by simp)

/-- A refusal fails only to show the value. -/
theorem refuse_ending (ht : s.takesUnwritten v = false) (hb : ¬ BeyondDouble s v)
    (hn : ¬ Signaling s v) (reason : String) : Ending s v (refuse (α := α) v s reason) := by
  have hshown := v.isSome_quoted?
  unfold refuse ConversionError.ofValue?
  split
  · next e he =>
    split at he
    · next shown hq =>
      cases he
      rw [hq] at hshown
      refine .refused _ rfl rfl ⟨fun h => ?_, hb, hn⟩
      rw [h.1] at hshown
      cases hshown
    · cases he
  · next he =>
    split at he
    · cases he
    · next hq =>
      rw [hq] at hshown
      exact .oversizedInteger ⟨by simpa using hshown, ht⟩

/-- A refusal by a shape that is no number. -/
theorem refuse_ending_of_shape (ht : s.takesUnwritten v = false) (hi : s ≠ .integer)
    (hf : s ≠ .float) (reason : String) : Ending s v (refuse (α := α) v s reason) :=
  refuse_ending ht (fun h => hf h.1) (fun h => h.1.elim hi hf) reason

/-- A refusal of a value that is no number. -/
theorem refuse_ending_of_ne (ht : s.takesUnwritten v = false) (hint : ∀ n, v ≠ .int n)
    (hdecimal : ∀ d, v ≠ .decimal d) (reason : String) :
    Ending s v (refuse (α := α) v s reason) :=
  refuse_ending ht (fun ⟨_, n, h, _⟩ => hint n h) (fun ⟨_, _, _, h⟩ => hdecimal _ h) reason

/-! ## One lemma for each shape -/

theorem containerText_ending (hint : ∀ n, v ≠ .int n) (hdecimal : ∀ d, v ≠ .decimal d) :
    Ending .string v (containerText v) := by
  unfold containerText
  split
  · next cs h =>
    have hwritable := (Json.exists_write_iff .compact 0 _ v).1 ⟨cs, h⟩
    exact .value _ (unhindered_of_not_oversized hwritable.small hint hdecimal)
  · exact refuse_ending_of_shape rfl (by simp) (by simp) _

theorem plainText_ending : Ending .string v (plainText v) := by
  have hplain := v.isSome_plain?
  unfold plainText
  split
  · next cs h =>
    rw [h] at hplain
    refine .value _ (unhindered_of_writable (by simp) (by simp) fun ho => ?_)
    rw [ho] at hplain
    cases hplain
  · next h =>
    rw [h] at hplain
    exact .oversizedInteger ⟨by simpa using hplain, rfl⟩

theorem toText_ending (v : Value) : Ending .string v (toText v) := by
  cases v with
  | text t => exact .value _ (unhindered_text t)
  | bool b => exact .value _ (unhindered_bool b)
  | list | tuple | document => exact containerText_ending (by simp) (by simp)
  | _ => exact plainText_ending

theorem ofDecimal?_eq_none_iff (d : Decimal) :
    Double.ofDecimal? d = none ↔ ∃ negative payload, d = .nan negative true payload := by
  cases d with
  | finite | infinity => simp [Double.ofDecimal?]
  | nan negative signaling payload => cases signaling <;> simp [Double.ofDecimal?]

/-- A decimal that has a double is not hindered. -/
theorem unhindered_of_ofDecimal? {d : Decimal} {x : Double} (h : Double.ofDecimal? d = some x) :
    Unhindered s (.decimal d) := by
  refine ⟨?_, ?_, ?_⟩
  · rintro ⟨ho, -⟩
    simp [Value.holdsOversized] at ho
  · rintro ⟨-, n, hn, -⟩
    cases hn
  · rintro ⟨-, negative, payload, hd⟩
    cases hd
    cases h

theorem toInteger_ending (v : Value) : Ending .integer v (toInteger v) := by
  cases v with
  | int n =>
    refine .value n ⟨?_, ?_, ?_⟩
    · rintro ⟨-, ⟨⟩⟩
    · rintro ⟨⟨⟩, -⟩
    · rintro ⟨-, _, _, ⟨⟩⟩
  | float x =>
    rw [toInteger]
    split
    · exact .value _ (unhindered_float x)
    · exact refuse_ending_of_ne rfl (by simp) (by simp) _
  | decimal d =>
    rw [toInteger]
    split
    · next h => exact .signalingNaN ⟨.inl rfl, by simpa using (ofDecimal?_eq_none_iff d).1 h⟩
    · next x h =>
      have hfree := unhindered_of_ofDecimal? (s := .integer) h
      split
      · exact .value _ hfree
      · exact refuse_ending rfl hfree.2.1 hfree.2.2 _
  | text t =>
    rw [toInteger]
    split
    · exact .value _ (unhindered_text t)
    · exact refuse_ending_of_ne rfl (by simp) (by simp) _
  | _ => exact refuse_ending_of_ne rfl (by simp) (by simp) _

theorem toFloat_ending (v : Value) : Ending .float v (toFloat v) := by
  cases v with
  | int n =>
    rw [toFloat]
    have hbound := Double.ofInt?_eq_none_iff n
    cases h : Double.ofInt? n with
    | some x =>
      refine .value x ⟨?_, ?_, ?_⟩
      · rintro ⟨-, ⟨⟩⟩
      · rintro ⟨-, _, ⟨⟩, hle⟩
        rw [hbound.2 hle] at h
        cases h
      · rintro ⟨-, _, _, ⟨⟩⟩
    | none => exact .beyondDouble ⟨rfl, n, rfl, hbound.1 h⟩
  | float x => exact .value _ (unhindered_float x)
  | decimal d =>
    rw [toFloat]
    split
    · next x h => exact .value _ (unhindered_of_ofDecimal? h)
    · next h => exact .signalingNaN ⟨.inr rfl, by simpa using (ofDecimal?_eq_none_iff d).1 h⟩
  | text t =>
    rw [toFloat]
    split
    · exact .value _ (unhindered_text t)
    · exact refuse_ending_of_ne rfl (by simp) (by simp) _
  | _ => exact refuse_ending_of_ne rfl (by simp) (by simp) _

theorem readDecimal_ending {cs : List Char} (hfree : Unhindered .decimal v)
    (ht : Shape.decimal.takesUnwritten v = false) : Ending .decimal v (readDecimal v cs) := by
  unfold readDecimal
  split
  · exact .value _ hfree
  · exact refuse_ending ht hfree.2.1 hfree.2.2 _

theorem toDecimal_ending (v : Value) : Ending .decimal v (toDecimal v) := by
  unfold toDecimal
  split
  · next n =>
    split
    · next cs h =>
      refine readDecimal_ending (unhindered_of_writable (by simp) (by simp) fun ho => ?_) rfl
      simp [Value.holdsOversized, (Integer.text?_eq_some.1 h).1] at ho
    · next h =>
      exact .oversizedInteger ⟨by simp [Value.holdsOversized, Integer.text?_eq_none.1 h], rfl⟩
  · next x => exact readDecimal_ending (unhindered_float x) rfl
  · next d =>
    refine .value d (unhindered_of_writable (by simp) (by simp) fun ho => ?_)
    simp [Value.holdsOversized] at ho
  · next t => exact readDecimal_ending (unhindered_text t) rfl
  · exact refuse_ending_of_shape (by cases v <;> rfl) (by simp) (by simp) _

/-- Zero and one can be written. -/
theorem unhindered_bit {n : Int} (h : n = 0 ∨ n = 1) : Unhindered .boolean (.int n) := by
  refine unhindered_of_writable (by simp) (by simp) fun ho => ?_
  have hn : Integer.isWritable n = true := by rcases h with rfl | rfl <;> decide +kernel
  simp [Value.holdsOversized, hn] at ho

theorem toBoolean_ending (v : Value) : Ending .boolean v (toBoolean v) := by
  cases v with
  | bool b => exact .value _ (unhindered_bool b)
  | int n =>
    rw [toBoolean]
    split
    · next h => exact .value _ (unhindered_bit (.inr h))
    · split
      · next h => exact .value _ (unhindered_bit (.inl h))
      · exact refuse_ending_of_shape rfl (by simp) (by simp) _
  | text t =>
    rw [toBoolean]
    split
    · exact .value _ (unhindered_text t)
    · split
      · exact .value _ (unhindered_text t)
      · exact refuse_ending_of_shape rfl (by simp) (by simp) _
  | _ => exact refuse_ending_of_shape rfl (by simp) (by simp) _

theorem toDocument_ending (v : Value) : Ending .document v (toDocument v) := by
  unfold toDocument
  split
  · exact .value _ (unhindered_of_writable (by simp) (by simp) fun _ => rfl)
  · next h =>
    refine refuse_ending_of_shape ?_ (by simp) (by simp) _
    cases v with
    | document es => exact absurd rfl (h es)
    | _ => rfl

/-! ## Any shape -/

theorem convert_ending (s : Shape) (v : Value) : Ending s v (convert s v) := by
  cases s with
  | any | list =>
    refine .value _ (unhindered_of_writable (by simp) (by simp) fun _ => ?_)
    cases v <;> rfl
  | string => exact (toText_ending v).map _
  | integer => exact (toInteger_ending v).map _
  | float => exact (toFloat_ending v).map _
  | decimal => exact (toDecimal_ending v).map _
  | boolean => exact (toBoolean_ending v).map _
  | document => exact (toDocument_ending v).map _

theorem coerce_ending (s : Shape) (v : Value) : Ending s v (coerce s v) := by
  by_cases hv : v = .null
  · subst hv
    have hfree : Unhindered s .null :=
      unhindered_of_not_oversized (by simp [Value.holdsOversized]) (by simp) (by simp)
    exact .value _ hfree
  · rw [coerce_of_ne_null hv]
    exact convert_ending s v

/-! ## The hindrances exclude each other -/

theorem not_unwritable_of_beyondDouble (h : BeyondDouble s v) : ¬ Unwritable s v := by
  obtain ⟨rfl, n, rfl, -⟩ := h
  rintro ⟨-, ⟨⟩⟩

theorem not_unwritable_of_signaling (h : Signaling s v) : ¬ Unwritable s v := by
  obtain ⟨-, _, _, rfl⟩ := h
  rintro ⟨ho, -⟩
  simp [Value.holdsOversized] at ho

theorem not_beyondDouble_of_signaling (h : Signaling s v) : ¬ BeyondDouble s v := by
  obtain ⟨-, _, _, rfl⟩ := h
  rintro ⟨-, _, ⟨⟩, -⟩

/-- Bringing a value into a shape gives a value or refuses the value for the shape exactly if
nothing hinders it, and each of the three hindrances has an error of its own. -/
theorem coerce_settles_iff (s : Shape) (v : Value) :
    (Settles s v ↔ Unhindered s v) ∧
      (coerce s v = .error .oversizedInteger ↔ Unwritable s v) ∧
      (coerce s v = .error .beyondDouble ↔ BeyondDouble s v) ∧
      (coerce s v = .error .signalingNaN ↔ Signaling s v) := by
  have hending := coerce_ending s v
  unfold Settles
  generalize coerce s v = x at hending
  cases hending with
  | value w h => simp [h, h.1, h.2.1, h.2.2]
  | refused e hvalue hshape h => simp [h, h.1, h.2.1, h.2.2, hvalue, hshape]
  | oversizedInteger h =>
    have hb : ¬ BeyondDouble s v := fun hb => not_unwritable_of_beyondDouble hb h
    have hn : ¬ Signaling s v := fun hn => not_unwritable_of_signaling hn h
    simp [Unhindered, h, hb, hn]
  | beyondDouble h =>
    have hn : ¬ Signaling s v := fun hn => not_beyondDouble_of_signaling hn h
    simp [Unhindered, h, not_unwritable_of_beyondDouble h, hn]
  | signalingNaN h =>
    simp [Unhindered, h, not_unwritable_of_signaling h, not_beyondDouble_of_signaling h]

/-- A signalling not-a-number as a float. -/
theorem not_settles_signalingNaN : ¬ Settles .float (.decimal (.nan false true 0)) := by
  rintro (⟨w, h⟩ | ⟨e, h, -⟩) <;> cases h

end Coercion
end Stencil
