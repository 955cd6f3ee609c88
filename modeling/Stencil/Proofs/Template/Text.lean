import Stencil.Proofs.Coercion.Typed
import Stencil.Proofs.Placeholder.Scan
import Stencil.Template.Fill

/-!
# What a filled text is

**One placeholder.** A text that is one placeholder becomes the value of its key in the shape asked
for (`wholeResult`). Null gives way to the default; an absent key leaves the text itself, and the
default does not count.

**Several parts.** Any other text has a result in the textual shapes only. There every placeholder
of the leftmost scan is replaced by its stand-in (`standIn`), which depends on its key alone: the
text of the value, the text of the default in place of null, and the placeholder itself if both are
null. The stand-ins are put into the spans of the placeholders (`weave`), so that neither they nor
the literals around them are looked at again.

Main result: `text_outcome`. The failures of a text are those of its coercions, and the first one
counts.
-/

namespace Stencil

/-- The characters of a text; other values have none. -/
def Value.chars : Value → List Char
  | .text s => s.toList
  | _ => []

namespace Fill

open Placeholder

variable (env : Environment) (shape : Shape) (default : Value)

/-! ## Single placeholders -/

/-- The value that counts: the default in place of null. -/
def counted (v default : Value) : Value := if v.isNull then default else v

theorem counted_of_ne_null {v : Value} (h : v ≠ .null) (default : Value) :
    counted v default = v := by
  rw [counted, if_neg fun hnull => h (Value.isNull_iff.1 hnull)]

/-- A value in a shape, or the failure of the filling. -/
def coerced (shape : Shape) (v : Value) : Except Failure Value :=
  (Coercion.coerce shape v).mapError .coercion

/-- The result of a text that is one placeholder. -/
def wholeResult (s : String) (key : List Char) : Except Failure Value :=
  match env.find? (.text (String.ofList key)) with
  | some v => coerced shape (counted v default)
  | none => coerced shape (.text s)

/-- The text that a value gives for a placeholder: null leaves the placeholder as it is. -/
def textFor (key : List Char) : Value → Except Failure Value
  | .null => .ok (.text (String.ofList (Piece.tokenText key)))
  | v => coerced .string v

/-- What replaces a placeholder inside a text. -/
def standIn (key : List Char) : Except Failure Value :=
  textFor key (counted ((env.find? (.text (String.ofList key))).getD .null) default)

theorem applyDefault_eq (v : Value) :
    Coercion.applyDefault shape v default = Coercion.coerce shape (counted v default) := by
  by_cases hv : v = .null
  · subst hv; rfl
  · rw [counted_of_ne_null hv, Coercion.applyDefault]
    rcases hx : Coercion.coerce shape v with e | w
    · rfl
    · have hw : w ≠ .null := by
        rintro rfl
        exact Coercion.coerce_ne_null hv hx
      cases w <;> first | rfl | exact absurd rfl hw

theorem whole_outcome (s : String) (key : List Char) :
    (whole env shape default s key).outcome = wholeResult env shape default s key := by
  rw [whole, Traced.outcome_bind, Environment.resolve_outcome, wholeResult]
  cases env.find? (.text (String.ofList key)) with
  | none => rfl
  | some v =>
    show (Coercion.applyDefault shape v default).mapError Failure.coercion = _
    rw [applyDefault_eq]; rfl

theorem textFor_of_ne_null (key : List Char) {v : Value} (h : v ≠ .null) :
    textFor key v = coerced .string v := by
  cases v <;> first | rfl | exact absurd rfl h

/-- The text of a value is its coercion to text. -/
theorem textOf?_of_ne_null {v : Value} (h : v ≠ .null) :
    (textOf? v).mapError Failure.coercion = (coerced .string v).map fun w => some w.chars := by
  rw [textOf?_eq_toText h, coerced, Coercion.coerce_string h]
  rcases Coercion.toText v <;> rfl

/-- A placeholder is replaced by the characters of its stand-in. -/
theorem replacement_outcome (key : List Char) :
    (replacement env default key).outcome = (standIn env default key).map Value.chars := by
  rw [replacement, Traced.outcome_bind, Environment.resolve_outcome, standIn]
  generalize env.find? (.text (String.ofList key)) = found
  show (coercing (textOf? (found.getD .null)) >>= _).outcome = _
  rw [Traced.outcome_bind, coercing, Traced.outcome_ofExcept]
  generalize found.getD .null = v
  by_cases hv : v = .null
  · subst hv
    show (coercing (textOf? default) >>= _).outcome = (textFor key default).map Value.chars
    rw [Traced.outcome_bind, coercing, Traced.outcome_ofExcept]
    by_cases hd : default = .null
    · subst hd
      show Except.ok (Piece.tokenText key) = Except.ok (String.ofList _).toList
      rw [String.toList_ofList]
    · rw [textOf?_of_ne_null hd, textFor_of_ne_null key hd]
      rcases coerced .string default <;> rfl
  · rw [counted_of_ne_null hv, textOf?_of_ne_null hv, textFor_of_ne_null key hv]
    rcases coerced .string v <;> rfl

/-! ## Texts with several parts -/

/-- Composing pieces puts the stand-ins into the spans of their placeholders. The pieces begin at
`place`; between `start` and `place` stand literals that are written already. -/
theorem compose_outcome (cs : List Char) (ps : List Piece) (start place : Nat)
    (hs : start ≤ place) (hcs : cs.drop place = ps.flatMap Piece.text) :
    (compose env default ps).outcome.map (slice cs start place ++ ·) =
      (((locate place ps).map key).mapM (standIn env default)).map
        fun ws => weave cs start (locate place ps) (ws.map Value.chars) := by
  induction ps generalizing start place with
  | nil =>
    show Except.ok (slice cs start place ++ []) = Except.ok (cs.drop start)
    rw [← slice_append_drop hs, hcs]; rfl
  | cons piece ps ih =>
    rw [List.flatMap_cons] at hcs
    have htail := drop_of_drop_eq hcs
    cases piece with
    | literal l =>
      have hl : slice cs start place ++ l = slice cs start (place + l.length) := by
        rw [← slice_append_slice hs (Nat.le_add_right place l.length)]
        exact congrArg _ (slice_of_drop_eq hcs).symm
      rw [locate, ← ih start (place + l.length) (by omega) htail, compose, Traced.outcome_bind,
        ← hl]
      rcases (compose env default ps).outcome <;>
        simp [bind, Except.bind, pure, Traced.ok, Except.map]
    | token key =>
      -- The literals up to `place` are the gap of this placeholder; behind it nothing is pending.
      have htoken : (Piece.token key).text.length = key.length + 2 := length_tokenText key
      rw [htoken, ← Nat.add_assoc] at htail
      have hrest := ih _ _ le_rfl htail
      rw [slice_self, show (fun cs : List Char => [] ++ cs) = id from rfl, Except.map_id] at hrest
      rw [locate, compose, Traced.outcome_bind, replacement_outcome, List.map_cons]
      simp only [Traced.outcome_bind, show (compose env default ps).outcome = _ from hrest]
      rcases hw : standIn env default key with e | w
      · rw [mapM_cons_error hw]; rfl
      · rw [mapM_cons_ok hw]
        rcases ((locate (place + key.length + 2) ps).map Placeholder.key).mapM
            (standIn env default) <;>
          simp [bind, Except.bind, pure, Traced.ok, Except.map, weave]

/-- A composed text is the text with its stand-ins woven in. -/
theorem compose_pieces_outcome (cs : List Char) :
    Itemwise (standIn env default) ((scan cs).map Placeholder.key)
      (fun ws => weave cs 0 (scan cs) (ws.map Value.chars))
      (compose env default (pieces cs)).outcome := by
  rw [itemwise_iff]
  have h := compose_outcome env default cs (pieces cs) 0 0 le_rfl (flatMap_pieces cs).symm
  rwa [slice_self, show (fun cs : List Char => [] ++ cs) = id from rfl, Except.map_id] at h

/-! ## Any text -/

theorem text_of_whole {s : String} {key : List Char} (h : whole? s.toList = some key) :
    text env shape default s = whole env shape default s key := by
  rw [text, h]

theorem text_outcome_of_textual {s : String} (h : whole? s.toList = none)
    (hs : shape.holdsText = true) :
    (text env shape default s).outcome =
      (compose env default (pieces s.toList)).outcome.map fun cs => .text (String.ofList cs) := by
  rw [text, h]
  simp only [hs, if_true, Traced.outcome_bind]
  rcases (compose env default (pieces s.toList)).outcome <;> rfl

theorem text_outcome_of_not_textual {s : String} (h : whole? s.toList = none)
    (hs : shape.holdsText = false) : (text env shape default s).outcome = .ok .null := by
  rw [text, h]
  simp only [hs, Bool.false_eq_true, if_false]
  rfl

/-- **What a filled text is.** One placeholder becomes its value, any other text is no value in a
shape that holds no text, and else the text with a stand-in in the span of each placeholder of the
only leftmost scan, if all of them have one. -/
theorem text_outcome (s : String) :
    (∀ key, IsKey key → s.toList = Piece.tokenText key →
      (text env shape default s).outcome = wholeResult env shape default s key) ∧
    ((∀ key, IsKey key → s.toList ≠ Piece.tokenText key) →
      (shape ≠ .string ∧ shape ≠ .any → (text env shape default s).outcome = .ok .null) ∧
      (shape = .string ∨ shape = .any →
        ∃ ps, (∀ qs, LeftmostScan s.toList qs ↔ qs = ps) ∧
          Itemwise (standIn env default) (ps.map Placeholder.key)
            (fun ws => .text (String.ofList (weave s.toList 0 ps (ws.map Value.chars))))
            (text env shape default s).outcome)) := by
  refine ⟨fun key hk hs => ?_, fun hno => ?_⟩
  · rw [text_of_whole env shape default (whole?_eq_some_iff.2 ⟨hk, hs⟩), whole_outcome]
  have hw : whole? s.toList = none := by
    rw [Option.eq_none_iff_forall_ne_some]
    intro key h
    obtain ⟨hk, hs⟩ := whole?_eq_some_iff.1 h
    exact hno key hk hs
  refine ⟨fun ⟨hs, ha⟩ => ?_, fun hs => ?_⟩
  · have ht : shape.holdsText = false := by cases shape <;> first | rfl | contradiction
    exact text_outcome_of_not_textual env shape default hw ht
  · have ht : shape.holdsText = true := by rcases hs with rfl | rfl <;> rfl
    refine ⟨scan s.toList, fun qs => ⟨fun h => h.eq_scan, fun h => h ▸ leftmostScan_scan _⟩, ?_⟩
    rw [text_outcome_of_textual env shape default hw ht]
    exact (compose_pieces_outcome env default s.toList).map fun cs => Value.text (String.ofList cs)

/-- The percent signs of a value neither open nor close a placeholder. -/
example : (text { globals := [(.text "a", .text "%b"), (.text "b", .text "%a%")] } .string .null
    "<%a%%b%%").outcome = .ok (.text "<%b%a%%") := by rfl

end Fill
end Stencil
