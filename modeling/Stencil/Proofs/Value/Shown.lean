import Stencil.Value.Quoted

/-!
# Values that cannot be shown

An integer past the limit of decimal text has no text, and so has no value that such an integer is
part of, at any depth (`holdsOversized`): it has no quoted form for a message and no plain form.
Nothing else keeps a value from being shown.
-/

namespace Stencil

open Text

namespace Value

mutual

/-- An integer past the limit of decimal text is part of the value. -/
def holdsOversized : Value → Bool
  | int n => !Integer.isWritable n
  | list items => anyOversized items
  | tuple items => anyOversized items
  | set items => anyOversized items
  | document entries => anyEntryOversized entries
  | _ => false

/-- Such an integer is part of some of the values. -/
def anyOversized : List Value → Bool
  | [] => false
  | v :: vs => v.holdsOversized || anyOversized vs

/-- Such an integer is part of a key or a value of some of the entries. -/
def anyEntryOversized : List (Value × Value) → Bool
  | [] => false
  | (k, v) :: es => k.holdsOversized || v.holdsOversized || anyEntryOversized es

end

theorem isSome_text? (n : Int) : (Integer.text? n).isSome = Integer.isWritable n := by
  cases h : Integer.isWritable n <;> simp [Integer.text?, h]

mutual

/-- A value can be quoted unless it holds an oversized integer. -/
theorem isSome_quoted? (v : Value) : v.quoted?.isSome = !v.holdsOversized := by
  cases v with
  | int n => simp [quoted?, holdsOversized, isSome_text?]
  | list items => simp [quoted?, holdsOversized, isSome_quotedItems? items]
  | tuple items => simp [quoted?, holdsOversized, isSome_quotedItems? items]
  | document entries => simp [quoted?, holdsOversized, isSome_quotedEntries? entries]
  | set items =>
    cases items with
    | nil => simp [quoted?, holdsOversized, anyOversized]
    | cons v vs => simp [quoted?, holdsOversized, isSome_quotedItems? (v :: vs)]
  | _ => simp [quoted?, holdsOversized]

theorem isSome_quotedItems? (vs : List Value) :
    (quotedItems? vs).isSome = !anyOversized vs := by
  cases vs with
  | nil => simp [quotedItems?, anyOversized]
  | cons v vs =>
    have hv := isSome_quoted? v
    have hvs := isSome_quotedItems? vs
    rw [quotedItems?, anyOversized]
    cases hq : v.quoted? <;> cases hqs : quotedItems? vs <;> simp_all

theorem isSome_quotedEntries? (es : List (Value × Value)) :
    (quotedEntries? es).isSome = !anyEntryOversized es := by
  cases es with
  | nil => simp [quotedEntries?, anyEntryOversized]
  | cons e es =>
    obtain ⟨k, v⟩ := e
    have hk := isSome_quoted? k
    have hv := isSome_quoted? v
    have hes := isSome_quotedEntries? es
    rw [quotedEntries?, anyEntryOversized]
    cases hqk : k.quoted? <;> cases hqv : v.quoted? <;> cases hqs : quotedEntries? es <;> simp_all

end

theorem isSome_plain? (v : Value) : v.plain?.isSome = !v.holdsOversized := by
  cases v with
  | text | decimal | date | moment => simp [plain?, holdsOversized]
  | _ => exact isSome_quoted? _

end Value

end Stencil
