import Mathlib.Data.List.TakeWhile
import Stencil.Number.Decimal

/-!
# Reading digits

A text of ASCII digits is left alone by everything that reading takes off a number: blanks, digits of
other scripts, underscores, a sign and the mark of a base. So it is read as the number of its digits
(`read?_of_digits`), and the decimal text of a number within the limit is read as that number
(`read?_digits`).
-/

namespace Stencil

namespace Text

/-- The text holds nothing but ASCII digits. -/
def isDigits (cs : List Char) : Bool := cs.all Char.isDigit

variable {c : Char} {cs ds : List Char}

theorem isDigits_cons : isDigits (c :: cs) = true ↔ c.isDigit = true ∧ isDigits cs = true := by
  simp [isDigits]

theorem isDigits_append : isDigits (cs ++ ds) = true ↔ isDigits cs = true ∧ isDigits ds = true := by
  simp [isDigits]

theorem isDigits_replicate (n : Nat) : isDigits (List.replicate n '0') = true := by
  simp only [isDigits, List.all_eq_true]
  intro c hc
  rw [List.eq_of_mem_replicate hc]
  rfl

/-- A digit is between zero and nine. -/
theorem toNat_of_isDigit (h : c.isDigit = true) : 0x30 ≤ c.toNat ∧ c.toNat ≤ 0x39 := by
  simp only [Char.isDigit, Bool.and_eq_true, decide_eq_true_eq] at h
  exact h

/-- A digit is none of the characters that are not digits. -/
theorem ne_of_isDigit (h : c.isDigit = true) {d : Char} (hd : d.isDigit = false) : c ≠ d := by
  rintro rfl
  rw [h] at hd
  cases hd

theorem ne_of_isDigits (h : isDigits ds = true) {d : Char} (hd : d.isDigit = false) :
    ∀ c ∈ ds, c ≠ d :=
  fun c hc => ne_of_isDigit (List.all_eq_true.1 h c hc) hd

/-- What holds of digits and of some other characters holds of all of them. -/
theorem of_isDigit_or {P : Char → Prop} [DecidablePred P] {others : List Char}
    (hdigit : ∀ c, c.isDigit = true → P c) (hothers : (others.all fun c => P c) = true)
    (h : (c.isDigit || others.contains c) = true) : P c := by
  rw [Bool.or_eq_true, List.contains_iff_mem] at h
  rcases h with h | h
  · exact hdigit c h
  · exact of_decide_eq_true (List.all_eq_true.1 hothers c h)

theorem toLower_of_isDigit (h : c.isDigit = true) : c.toLower = c := by
  obtain ⟨-, hhigh⟩ := toNat_of_isDigit h
  have hsmall : ¬ 'A'.val ≤ c.val := by
    rw [UInt32.le_iff_toNat_le]
    show ¬ 0x41 ≤ c.toNat
    omega
  unfold Char.toLower
  rw [dif_neg]
  rintro ⟨h, -⟩
  exact hsmall h

theorem isBlank_of_isDigit (h : c.isDigit = true) : isBlank c = false := by
  obtain ⟨hlow, hhigh⟩ := toNat_of_isDigit h
  simp only [isBlank, Bool.or_eq_false_iff, Bool.and_eq_false_iff, decide_eq_false_iff_not,
    beq_eq_false_iff_ne]
  omega

theorem asciiDigit_of_isDigit (h : c.isDigit = true) : asciiDigit c = c := by
  obtain ⟨hlow, hhigh⟩ := toNat_of_isDigit h
  have hvalue : 0x30 + (c.toNat - 0x30) = c.toNat := by omega
  rw [asciiDigit, digitValue?_of_isDigit h]
  show digitChar (c.toNat - 0x30) = c
  rw [digitChar, hvalue, Char.ofNat_toNat]

/-- Blanks around a text are stripped with those at its ends. -/
theorem strip_padded {before after : List Char} (hbefore : ∀ c ∈ before, isBlank c = true)
    (hafter : ∀ c ∈ after, isBlank c = true) (cs : List Char) :
    strip (before ++ cs ++ after) = strip cs := by
  have hstart : stripStart (before ++ cs ++ after) = stripStart (cs ++ after) := by
    rw [List.append_assoc]
    exact List.dropWhile_append_of_pos hbefore
  have hend : ∀ ds : List Char, stripEnd (ds ++ after) = stripEnd ds := by
    intro ds
    have hreverse : ∀ c ∈ after.reverse, isBlank c = true := fun c hc => hafter c (List.mem_reverse.1 hc)
    rw [stripEnd, stripEnd, List.reverse_append, List.dropWhile_append_of_pos hreverse]
  rw [strip, strip, hstart]
  unfold stripStart
  rw [List.dropWhile_append]
  split
  · next hempty =>
    have hblank : after.dropWhile isBlank = [] := List.dropWhile_eq_nil_iff.2 hafter
    rw [hblank, List.isEmpty_iff.1 hempty]
  · exact hend _

/-- Nothing is stripped from a text whose ends are not blank. -/
theorem strip_eq_self (hhead : ∀ c ∈ cs.head?, isBlank c = false)
    (hlast : ∀ c ∈ cs.getLast?, isBlank c = false) : strip cs = cs := by
  have hstart : stripStart cs = cs := by
    cases cs with
    | nil => rfl
    | cons c cs => exact stripStart_eq_self (hhead c rfl)
  have hend : stripEnd cs = cs := by
    rw [stripEnd]
    rcases hreverse : cs.reverse with _ | ⟨c, ds⟩
    · simpa using congrArg List.reverse hreverse
    · have hc : isBlank c = false := by
        refine hlast c ?_
        rw [← List.head?_reverse, hreverse]
        rfl
      rw [List.dropWhile_cons_of_neg (by simp [hc]), ← hreverse, List.reverse_reverse]
  rw [strip, hstart, hend]

/-! ### Hexadecimal digits -/

/-- Without its last digit a number is as much shorter. -/
theorem div_lt_of_lt_pow {width n : Nat} (h : n < 16 ^ (width + 1)) : n / 16 < 16 ^ width := by
  rw [Nat.div_lt_iff_lt_mul (by decide), ← Nat.pow_succ]
  exact h

/-- The last digit of a number behind the others, and behind what stands before them. -/
theorem lastDigit_behind (m width n : Nat) :
    16 * (m * 16 ^ width + n / 16) + n % 16 = m * 16 ^ (width + 1) + n := by
  have hsplit : 16 * (m * 16 ^ width) = m * 16 ^ (width + 1) := by
    rw [Nat.pow_succ, Nat.mul_left_comm, Nat.mul_comm 16]
  omega

end Text

namespace Integer

open Text

variable {c : Char} {cs : List Char}

/-! ## Digits of numbers -/

theorem isDigits_digits (n : Nat) : isDigits (digits n) = true := by
  rw [isDigits, List.all_eq_true]
  intro c hc
  exact Nat.isDigit_of_mem_toDigits (by decide) (by decide) hc

theorem digits_ne_nil (n : Nat) : digits n ≠ [] := Nat.toDigits_ne_nil

/-- The number that a text of digits stands for. -/
def ofDigits (cs : List Char) : Nat := Nat.ofDigitChars 10 cs 0

theorem text_eq_signText (n : Int) :
    text n = Decimal.signText (decide (n < 0)) ++ digits n.natAbs := by
  unfold text
  by_cases h : n < 0
  · rw [if_pos h, decide_eq_true h]
    rfl
  · rw [if_neg h, decide_eq_false h]
    rfl

theorem ofDigits_digits (n : Nat) : ofDigits (digits n) = n :=
  Nat.ofDigitChars_toDigits (by decide) (by decide)

theorem length_digits_le_iff {n k : Nat} (hk : 0 < k) : (digits n).length ≤ k ↔ n < 10 ^ k :=
  Nat.length_toDigits_le_iff (by decide) hk

/-- Only the digits of zero begin with zero. -/
theorem head?_digits {n : Nat} (hn : 0 < n) : (digits n).head? ≠ some '0' := by
  induction n using Nat.strongRecOn with
  | ind n ih =>
    by_cases hlt : n < 10
    · have hdigit : ∀ n < 10, 0 < n → [n.digitChar].head? ≠ some '0' := by decide
      rw [digits, Nat.toDigits_of_lt_base hlt]
      exact hdigit n hlt hn
    · have hle : 10 ≤ n := Nat.not_lt.1 hlt
      have hhead := ih (n / 10) (by omega) (by omega)
      obtain ⟨c, cs, hcs⟩ := List.exists_cons_of_ne_nil (digits_ne_nil (n / 10))
      rw [digits] at hcs hhead
      rw [digits, Nat.toDigits_of_base_le (by decide) hle, hcs]
      rw [hcs] at hhead
      exact hhead

/-! ## Reading -/

theorem digitIn?_of_isDigit (h : c.isDigit = true) : digitIn? 10 c = some (c.toNat - 0x30) := by
  obtain ⟨hlow, hhigh⟩ := toNat_of_isDigit h
  have hvalue : hexValue? c = some (c.toNat - 0x30) := by
    simp [hexValue?, hlow, hhigh]
  have hlt : c.toNat - 0x30 < 10 := by omega
  rw [digitIn?, hvalue, Option.filter_some, if_pos (by simpa using hlt)]

theorem foldlM_digits (h : isDigits cs = true) (n : Nat) :
    cs.foldlM (fun n c => (digitIn? 10 c).map (10 * n + ·)) n = some (Nat.ofDigitChars 10 cs n) := by
  induction cs generalizing n with
  | nil => rfl
  | cons c cs ih =>
    obtain ⟨hc, hcs⟩ := isDigits_cons.1 h
    rw [List.foldlM_cons, digitIn?_of_isDigit hc, Option.map_some, Option.bind_eq_bind,
      Option.bind_some, ih hcs, Nat.ofDigitChars_cons]
    rfl

/-- A text without underscores has none to drop. -/
theorem ungroup?_eq_self {isDigit : Char → Bool} (h : '_' ∉ cs) (afterDigit : Bool) :
    ungroup? isDigit afterDigit cs = some cs := by
  induction cs generalizing afterDigit with
  | nil => rfl
  | cons c cs ih =>
    obtain ⟨hc, hcs⟩ : '_' ≠ c ∧ '_' ∉ cs := by simpa using h
    have hstep : ungroup? isDigit afterDigit (c :: cs) =
        (ungroup? isDigit (isDigit c) cs).map (c :: ·) := by
      rw [ungroup?.eq_def]
      split
      · next heq => cases heq
      · next heq => exact absurd (List.cons.inj heq).1.symm hc
      · next heq => exact absurd (List.cons.inj heq).1.symm hc
      · next heq =>
        obtain ⟨rfl, rfl⟩ := List.cons.inj heq
        rfl
    rw [hstep, ih hcs]
    rfl

theorem underscore_not_mem (h : isDigits cs = true) : '_' ∉ cs := by
  intro hmem
  rw [isDigits, List.all_eq_true] at h
  exact absurd (h '_' hmem) (by decide)

theorem head?_isDigit (h : isDigits cs = true) : ∀ c ∈ cs.head?, c.isDigit = true := by
  intro c hc
  rw [isDigits, List.all_eq_true] at h
  exact h c (List.mem_of_mem_head? hc)

theorem strip_digits (h : isDigits cs = true) : strip cs = cs := by
  refine strip_eq_self ?_ ?_
  · intro c hc
    exact isBlank_of_isDigit (head?_isDigit h c hc)
  · intro c hc
    rw [isDigits, List.all_eq_true] at h
    exact isBlank_of_isDigit (h c (List.mem_of_getLast? hc))

theorem map_asciiDigit (h : isDigits cs = true) : cs.map asciiDigit = cs := by
  rw [isDigits, List.all_eq_true] at h
  calc cs.map asciiDigit = cs.map id :=
        List.map_congr_left fun c hc => asciiDigit_of_isDigit (h c hc)
    _ = cs := List.map_id cs

/-- A text that begins with a digit has no sign. -/
theorem splitSign_of_isDigit (h : ∀ c ∈ cs.head?, c.isDigit = true) : splitSign cs = (false, cs) := by
  unfold splitSign
  split
  · exact absurd (h _ rfl) (by decide)
  · exact absurd (h _ rfl) (by decide)
  · rfl

theorem dropBaseMark_ten (h : isDigits cs = true) : dropBaseMark 10 cs = cs := by
  unfold dropBaseMark
  split
  · next c cs =>
    have hc : c.toLower = c := toLower_of_isDigit (isDigits_cons.1 (isDigits_cons.1 h).2).1
    simp [hc]
  · rfl

theorem magnitude?_of_digits (h : isDigits cs = true) (hne : cs ≠ []) (hlength : cs.length ≤ digitLimit) :
    magnitude? 10 cs = some (ofDigits cs) := by
  have hempty : cs.isEmpty = false := by simpa using hne
  rw [magnitude?, ungroup?_eq_self (underscore_not_mem h)]
  show (if (cs.isEmpty || (10 == 10 && decide (digitLimit < cs.length))) = true then none
    else _) = _
  rw [hempty, if_neg (by simpa using hlength)]
  exact foldlM_digits h 0

/-- **A text of digits within the limit is read** as the number of its digits. -/
theorem read?_of_digits (h : isDigits cs = true) (hne : cs ≠ []) (hlength : cs.length ≤ digitLimit) :
    read? 10 cs = some (ofDigits cs : Int) := by
  unfold read?
  rw [strip_digits h, map_asciiDigit h, splitSign_of_isDigit (head?_isDigit h)]
  dsimp only
  rw [dropBaseMark_ten h, magnitude?_of_digits h hne hlength]
  rfl

/-- The decimal text of a number within the limit is read as the number. -/
theorem read?_digits {n : Nat} (h : n < limitBound) : read? 10 (digits n) = some (n : Int) := by
  have hlength : (digits n).length ≤ digitLimit := (length_digits_le_iff (by decide)).2 h
  rw [read?_of_digits (isDigits_digits n) (digits_ne_nil n) hlength, ofDigits_digits]

end Integer

namespace Decimal

open Text Integer

theorem natOf?_digits {cs : List Char} (h : isDigits cs = true) : natOf? cs = some (ofDigits cs) := by
  have hfold : ∀ n, cs.foldlM
      (fun n c => if c.isDigit then some (10 * n + (c.toNat - 0x30)) else none) n =
        some (Nat.ofDigitChars 10 cs n) := by
    induction cs with
    | nil => exact fun n => rfl
    | cons c cs ih =>
      obtain ⟨hc, hcs⟩ := isDigits_cons.1 h
      intro n
      rw [List.foldlM_cons, if_pos hc, Option.bind_eq_bind, Option.bind_some, ih hcs,
        Nat.ofDigitChars_cons]
      rfl
  exact hfold 0

end Decimal
end Stencil
