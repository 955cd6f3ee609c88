import Stencil.Proofs.Coercion.Typed
import Stencil.Proofs.Number.Written

/-!
# Through text and back

Integers within the limit of decimal text, decimals and booleans survive as text: brought into the
shape `string` and from there into their own shape they are what they were, a decimal with its sign,
its digits and its exponent. An integer may go by way of a decimal, which is written like it. Blanks
that are put around the text are not seen.

Main result: `coerce_text_back`.
-/

namespace Stencil.Coercion

open Text

variable {before after : List Char} (hbefore : ∀ c ∈ before, isBlank c = true)
  (hafter : ∀ c ∈ after, isBlank c = true)

/-! ## Into text -/

theorem isWritable_of_length {n : Int} (h : (Integer.digits n.natAbs).length ≤ Integer.digitLimit) :
    Integer.isWritable n = true :=
  decide_eq_true ((Integer.length_digits_le_iff (by decide)).1 h)

theorem coerce_string_int {n : Int} (h : Integer.isWritable n = true) :
    coerce .string (.int n) = .ok (.text (String.ofList (Integer.text n))) := by
  have htext : Integer.text? n = some (Integer.text n) := Integer.text?_eq_some.2 ⟨h, rfl⟩
  have hplain : (Value.int n).plain? = some (Integer.text n) := by
    simp [Value.plain?, Value.quoted?, htext]
  rw [coerce_string (by simp), toText, plainText, hplain]
  · rfl
  all_goals simp

theorem coerce_string_decimal (d : Decimal) :
    coerce .string (.decimal d) = .ok (.text (String.ofList d.text)) := rfl

theorem coerce_decimal_int {n : Int} (h : Integer.isWritable n = true) :
    coerce .decimal (.int n) = .ok (.decimal (.ofInt n)) := by
  have htext : Integer.text? n = some (Integer.text n) := Integer.text?_eq_some.2 ⟨h, rfl⟩
  have hread := Decimal.read?_text (Decimal.isInRange_ofInt h) (List.forall_mem_nil _)
    (List.forall_mem_nil _)
  rw [List.nil_append, List.append_nil, Decimal.text_ofInt] at hread
  have hconvert : toDecimal (.int n) = .ok (.ofInt n) := by
    unfold toDecimal
    simp only [htext, readDecimal, hread]
  rw [coerce_decimal (by simp), hconvert]
  rfl

/-! ## From text -/

include hbefore hafter

theorem coerce_integer_text {n : Int} (h : Integer.isWritable n = true) :
    coerce .integer (.text (String.ofList (before ++ Integer.text n ++ after))) = .ok (.int n) := by
  rw [coerce_integer (by simp), toInteger, String.toList_ofList, Integer.read?_text hbefore hafter h]
  rfl

theorem coerce_decimal_text {d : Decimal} (h : d.isInRange = true) :
    coerce .decimal (.text (String.ofList (before ++ d.text ++ after))) = .ok (.decimal d) := by
  have hconvert : toDecimal (.text (String.ofList (before ++ d.text ++ after))) = .ok d := by
    unfold toDecimal
    simp only [String.toList_ofList, readDecimal, Decimal.read?_text h hbefore hafter]
  rw [coerce_decimal (by simp), hconvert]
  rfl

theorem coerce_boolean_text (b : Bool) :
    coerce .boolean (.text (String.ofList (before ++ (if b then "true" else "false").toList ++ after))) =
      .ok (.bool b) := by
  have hword : Argument.normalName
      (String.ofList (before ++ (if b then "true" else "false").toList ++ after)) =
        if b then "true" else "false" := by
    rw [Argument.normalName, String.toList_ofList, strip_padded hbefore hafter]
    cases b <;> rfl
  rw [coerce_boolean (by simp), toBoolean, hword]
  cases b <;> rfl

omit hbefore hafter

/-- **Through text and back.** An integer of at most as many digits as decimal text may have, a
decimal whose exponents keep their range, and a boolean come back from their text as they were,
whatever blanks are put around it. The decimal of such an integer has the text of the integer, and
is read from it. -/
theorem coerce_text_back {before after : String} (hbefore : ∀ c ∈ before.toList, isBlank c = true)
    (hafter : ∀ c ∈ after.toList, isBlank c = true) :
    (∀ n : Int, (Integer.digits n.natAbs).length ≤ Integer.digitLimit → ∃ (s : String) (d : Decimal),
      coerce .string (.int n) = .ok (.text s) ∧
        coerce .integer (.text (before ++ s ++ after)) = .ok (.int n) ∧
        coerce .decimal (.int n) = .ok (.decimal d) ∧ coerce .string (.decimal d) = .ok (.text s) ∧
        coerce .decimal (.text (before ++ s ++ after)) = .ok (.decimal d)) ∧
      (∀ d : Decimal, d.isInRange = true → ∃ s : String, coerce .string (.decimal d) = .ok (.text s) ∧
        coerce .decimal (.text (before ++ s ++ after)) = .ok (.decimal d)) ∧
      ∀ b : Bool, ∃ s : String, coerce .string (.bool b) = .ok (.text s) ∧
        coerce .boolean (.text (before ++ s ++ after)) = .ok (.bool b) := by
  have hpad : ∀ cs : List Char, before ++ String.ofList cs ++ after =
      String.ofList (before.toList ++ cs ++ after.toList) := by
    intro cs
    rw [String.ofList_append, String.ofList_append, String.ofList_toList, String.ofList_toList]
  refine ⟨fun n hn => ?_, fun d hd => ?_, fun b => ?_⟩
  · have hwritable := isWritable_of_length hn
    have hrange := Decimal.isInRange_ofInt hwritable
    refine ⟨_, .ofInt n, coerce_string_int hwritable, ?_, coerce_decimal_int hwritable, ?_, ?_⟩
    · rw [hpad]
      exact coerce_integer_text hbefore hafter hwritable
    · rw [coerce_string_decimal, Decimal.text_ofInt]
    · rw [hpad, ← Decimal.text_ofInt]
      exact coerce_decimal_text hbefore hafter hrange
  · refine ⟨_, coerce_string_decimal d, ?_⟩
    rw [hpad]
    exact coerce_decimal_text hbefore hafter hd
  · refine ⟨if b then "true" else "false", rfl, ?_⟩
    rw [← String.ofList_toList (s := if b then "true" else "false"), hpad]
    exact coerce_boolean_text hbefore hafter b

/-- A negative integer, a small number in scientific notation, a signalling not-a-number with a
payload and a boolean, between a line feed and a wide space. -/
theorem coerce_text_back_blanks :
    (∀ c ∈ "\n".toList, isBlank c = true) ∧ (∀ c ∈ "\u3000".toList, isBlank c = true) ∧
      coerce .integer (.text "\n-42\u3000") = .ok (.int (-42)) ∧
      coerce .decimal (.text "\n-1.20E-7\u3000") = .ok (.decimal (.finite true 120 (-9))) ∧
      coerce .decimal (.text "\nsNaN12\u3000") = .ok (.decimal (.nan false true 12)) ∧
      coerce .boolean (.text "\nfalse\u3000") = .ok (.bool false) := by
  have hbefore : ∀ c ∈ "\n".toList, isBlank c = true := List.all_eq_true.1 rfl
  have hafter : ∀ c ∈ "\u3000".toList, isBlank c = true := List.all_eq_true.1 rfl
  obtain ⟨hints, hdecimals, hbools⟩ := coerce_text_back hbefore hafter
  obtain ⟨s, -, hs, hint, -⟩ := hints (-42) (by decide)
  rw [coerce_string_int (by decide +kernel)] at hs
  obtain ⟨t, ht, hsmall⟩ := hdecimals (.finite true 120 (-9)) (by decide)
  obtain ⟨u, hu, hnan⟩ := hdecimals (.nan false true 12) rfl
  obtain ⟨w, hw, hbool⟩ := hbools false
  cases hs
  cases ht
  cases hu
  cases hw
  exact ⟨hbefore, hafter, hint, hsmall, hnan, hbool⟩

end Stencil.Coercion
