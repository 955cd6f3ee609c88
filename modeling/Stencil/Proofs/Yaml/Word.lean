import Stencil.Proofs.Yaml.Kept
import Stencil.Proofs.Yaml.Meaning
import Stencil.Proofs.Yaml.Pen
import Stencil.Proofs.Yaml.Unquoted

/-!
# Words

The texts of null, of booleans and of numbers are *words* (`IsWord`): letters, digits and the signs
of numbers, with a letter or a digit at the begin or behind a sign. A word is no markup, whatever
follows it, and may be written plain (`IsWord.allowsPlain`).
-/

namespace Stencil.Yaml

open Text Integer

variable {c : Char} {cs ds w : List Char}

/-! ## Letters -/

theorem ascii_of_isLetter (h : Unquoted.isLetter c = true) : 0x20 ≤ c.toNat ∧ c.toNat ≤ 0x7e := by
  delta Unquoted.isLetter Char.isAlphanum Char.isAlpha Char.isUpper Char.isLower Char.isDigit at h
  simp only [Bool.or_eq_true, Bool.and_eq_true, decide_eq_true_eq, List.contains_cons, beq_iff_eq,
    List.contains_nil, Bool.false_eq_true, or_false, UInt32.le_iff_toNat_le] at h
  change (((0x41 ≤ c.toNat ∧ c.toNat ≤ 0x5a) ∨ (0x61 ≤ c.toNat ∧ c.toNat ≤ 0x7a)) ∨
    (0x30 ≤ c.toNat ∧ c.toNat ≤ 0x39)) ∨ _ at h
  rcases h with ((h | h) | h) | rfl | rfl | rfl
  · omega
  · omega
  · omega
  · decide
  · decide
  · decide

theorem isKept_of_isLetter (h : Unquoted.isLetter c = true) : isKept c = true :=
  isKept_of_ascii (ascii_of_isLetter h)

theorem isSolid_of_isLetter (h : Unquoted.isLetter c = true) (cs : List Char) :
    isSolid (c :: cs) = true := by
  have hspace : c ≠ ' ' := Unquoted.ne_of_isLetter h (by decide)
  have hfeed : c ≠ '\n' := Unquoted.ne_of_isLetter h (by decide)
  have hhash : c ≠ '#' := Unquoted.ne_of_isLetter h (by decide)
  have hmark : c ≠ Cursor.byteOrderMark := Unquoted.ne_of_isLetter h (by decide)
  simp [isSolid, isFiller, hspace, hfeed, Unquoted.isBreak_of_isLetter h, hhash, hmark]

theorem isBlankOrBreak_of_isLetter (h : Unquoted.isLetter c = true) : isBlankOrBreak c = false := by
  have hne : ∀ d, Unquoted.isLetter d = false → c ≠ d := fun d hd => Unquoted.ne_of_isLetter h hd
  simp [isBlankOrBreak, isGap, Unquoted.isBreak_of_isLetter h, hne ' ' (by decide),
    hne '\t' (by decide), hne '\r' (by decide), hne '\x00' (by decide)]

/-! ## Words -/

/-- The text of a number, or a word that begins like none. -/
structure IsWord (w : List Char) : Prop where
  letters : ∀ c ∈ w, Unquoted.isLetter c = true
  begins : ∃ negative c ds, w = Decimal.signText negative ++ c :: ds ∧ c.isAlphanum = true

namespace IsWord

theorem exists_cons (h : IsWord w) : ∃ c ds, w = c :: ds := by
  obtain ⟨negative, d, es, heq, -⟩ := h.begins
  cases negative <;> exact ⟨_, _, heq⟩

/-- A sign has a letter behind it. -/
theorem exists_letter (h : IsWord (c :: ds)) :
    ∃ d, (c = d ∨ ∃ es, ds = d :: es) ∧ Unquoted.isLetter d = true ∧ d ≠ '-' ∧ d ≠ '.' := by
  obtain ⟨negative, d, es, heq, hd⟩ := h.begins
  refine ⟨d, ?_, by rw [Unquoted.isLetter, hd, Bool.true_or], ?_, ?_⟩
  · cases negative with
    | true => exact .inr ⟨es, (List.cons.inj heq).2⟩
    | false => exact .inl (List.cons.inj heq).1
  · rintro rfl
    cases hd
  · rintro rfl
    cases hd

theorem leadsWithIndicator_eq (h : IsWord (c :: ds)) (rest : List Char) :
    Traits.leadsWithIndicator (c :: (ds ++ rest)) = false := by
  have hc : Unquoted.isLetter c = true := h.letters c List.mem_cons_self
  have hleading : Traits.leadingIndicators.contains c = false := by
    rw [Bool.eq_false_iff, ne_eq, List.contains_iff_mem]
    intro hmem
    have hnone : ∀ d ∈ Traits.leadingIndicators, Unquoted.isLetter d = false :=
      List.all_iff_forall_prop.1 (by decide)
    exact Unquoted.ne_of_isLetter hc (hnone c hmem) rfl
  have hquestion : c ≠ '?' := Unquoted.ne_of_isLetter hc (by decide)
  have hcolon : c ≠ ':' := Unquoted.ne_of_isLetter hc (by decide)
  obtain ⟨d, hbegins, hd, hdash, -⟩ := h.exists_letter
  rw [Traits.leadsWithIndicator, hleading, Bool.false_or]
  rcases hbegins with rfl | ⟨es, rfl⟩
  · simp [hquestion, hcolon, hdash]
  · have hends : endsHere (d :: es ++ rest) = false := isBlankOrBreak_of_isLetter hd
    rw [hends, Bool.and_false]

theorem beginsLikeMarker_eq (h : IsWord (c :: ds)) (rest : List Char) :
    beginsLikeMarker (c :: (ds ++ rest)) = false := by
  obtain ⟨d, hbegins, -, hdash, hdot⟩ := h.exists_letter
  rcases hbegins with rfl | ⟨es, rfl⟩
  · simp [beginsLikeMarker, hdash, hdot]
  · simp [beginsLikeMarker, hdash, hdot]

/-- Where no character is a colon or a hash there is no indicator. -/
theorem holdsIndicator_eq (h : ∀ c ∈ w, Unquoted.isLetter c = true) :
    Traits.holdsIndicator w = false := by
  induction w with
  | nil => rfl
  | cons c w ih =>
    cases w with
    | nil => rfl
    | cons d w =>
      have hothers := (List.forall_mem_cons.1 h).2
      have hd := hothers d List.mem_cons_self
      have hcolon : d ≠ ':' := Unquoted.ne_of_isLetter hd (by decide)
      have hhash : d ≠ '#' := Unquoted.ne_of_isLetter hd (by decide)
      rw [Traits.holdsIndicator, ih hothers]
      simp [hcolon, hhash]

/-- No letter is a space or a line break. -/
theorem isBadEnd_eq (h : ∀ c ∈ w, Unquoted.isLetter c = true) {c? : Option Char}
    (hc : ∀ c ∈ c?, c ∈ w) : Traits.isBadEnd c? = false := by
  cases c? with
  | none => rfl
  | some c =>
    have hletter := h c (hc c rfl)
    have hspace : c ≠ ' ' := Unquoted.ne_of_isLetter hletter (by decide)
    simp [Traits.isBadEnd, Traits.isSpace, hspace, Unquoted.isBreak_of_isLetter hletter]

/-- **A word may be written plain.** -/
theorem allowsPlain (h : IsWord w) : (Traits.ofText w).allowsPlain = true := by
  obtain ⟨c, ds, rfl⟩ := h.exists_cons
  have hbreak : ∀ d ∈ c :: ds, isBreak d = false := fun d hd =>
    Unquoted.isBreak_of_isLetter (h.letters d hd)
  have hbreaks : (c :: ds).any isBreak = false := by
    rw [List.any_eq_false]
    exact fun d hd => by simp [hbreak d hd]
  have hchars : (c :: ds).any (!isPlainChar ·) = false := by
    rw [List.any_eq_false]
    intro d hd
    obtain ⟨hlow, hhigh⟩ := ascii_of_isLetter (h.letters d hd)
    simp [isPlainChar, hlow, hhigh]
  have hlead := h.leadsWithIndicator_eq []
  have hmarker := h.beginsLikeMarker_eq []
  rw [List.append_nil] at hlead hmarker
  have hfirst : Traits.isBadEnd (c :: ds).head? = false :=
    isBadEnd_eq h.letters fun d hd => List.mem_of_mem_head? hd
  have hlast : Traits.isBadEnd (c :: ds).getLast? = false :=
    isBadEnd_eq h.letters fun d hd => List.mem_of_getLast? hd
  simp only [Traits.ofText, List.isEmpty_cons, Bool.false_eq_true, if_false, hbreaks, hchars,
    (Pen.follows_of_noBreak hbreak).1, hmarker, hlead, holdsIndicator_eq h.letters, hfirst, hlast]
  rfl

end IsWord

/-! ## Words for values -/

theorem isLetter_of_isDigit {c : Char} (h : c.isDigit = true) : Unquoted.isLetter c = true := by
  rw [Unquoted.isLetter, Char.isAlphanum, h, Bool.or_true, Bool.true_or]

theorem isWord_signText {negative : Bool} {c : Char} {cs : List Char} (hc : c.isDigit = true)
    (hcs : ∀ d ∈ cs, Unquoted.isLetter d = true) : IsWord (Decimal.signText negative ++ c :: cs) where
  letters := by
    intro d hd
    rcases List.mem_append.1 hd with hd | hd
    · cases negative with
      | true =>
        rw [List.mem_singleton.1 hd]
        rfl
      | false => exact absurd hd List.not_mem_nil
    rcases List.mem_cons.1 hd with rfl | hd
    · exact isLetter_of_isDigit hc
    · exact hcs d hd
  begins := ⟨negative, c, cs, rfl, by rw [Char.isAlphanum, hc, Bool.or_true]⟩

theorem isWord_integer (n : Int) : IsWord (Integer.text n) := by
  obtain ⟨c, ds, hds⟩ := List.exists_cons_of_ne_nil (digits_ne_nil n.natAbs)
  have hdigits := isDigits_digits n.natAbs
  rw [hds] at hdigits
  obtain ⟨hc, hrest⟩ := isDigits_cons.1 hdigits
  rw [isDigits, List.all_eq_true] at hrest
  rw [text_eq_signText, hds]
  exact isWord_signText hc fun d hd => isLetter_of_isDigit (hrest d hd)

theorem isWord_float {x : Double} (hfinite : x.isFinite = true) (hpoint : '.' ∈ x.text) :
    IsWord x.text := by
  obtain ⟨negative, -, -, p, -, htext, -⟩ := Double.exists_pointed_of_isFinite hfinite hpoint
  obtain ⟨c, cs, hcs, hc⟩ := p.exists_text_eq_cons
  rw [htext, hcs]
  refine isWord_signText hc ?_
  intro d hd
  have hnumeral := p.text_isNumeral d (by rw [hcs]; exact List.mem_cons_of_mem _ hd)
  exact Double.Pointed.of_isNumeral (fun d hd => isLetter_of_isDigit hd) (by decide) hnumeral

theorem isWord_null : IsWord "null".toList :=
  ⟨List.all_eq_true.1 rfl, false, 'n', "ull".toList, rfl, rfl⟩

theorem isWord_bool (b : Bool) : IsWord (if b then "true" else "false").toList := by
  cases b with
  | true => exact ⟨List.all_eq_true.1 rfl, false, 't', "rue".toList, rfl, rfl⟩
  | false => exact ⟨List.all_eq_true.1 rfl, false, 'f', "alse".toList, rfl, rfl⟩

end Stencil.Yaml
