import Mathlib.Data.Bool.AllAny
import Mathlib.Data.List.TakeWhile
import Stencil.Proofs.Number.Shortest

/-!
# Floats with a point

A `Pointed` number is a text of digits with a point among them and perhaps an exponent behind them.
Such a text is read as the double nearest to what it says (`read?_text`), and the text of a finite
double is such a text if it has a point at all: only a single digit with an exponent has none
(`exists_pointed`).
-/

namespace Stencil

open Text

namespace Integer

theorem ofDigits_append_zeros (cs : List Char) (n : Nat) :
    ofDigits (cs ++ List.replicate n '0') = ofDigits cs * 10 ^ n := by
  rw [ofDigits, Nat.ofDigitChars_append, Nat.ofDigitChars_replicate_zero, Nat.mul_comm]
  rfl

theorem ofDigits_zeros_append (cs : List Char) (n : Nat) :
    ofDigits (List.replicate n '0' ++ cs) = ofDigits cs := by
  rw [ofDigits, Nat.ofDigitChars_append, Nat.ofDigitChars_replicate_zero]
  rfl

end Integer

namespace Decimal

variable {p : Char → Bool} {c : Char} {cs ds : List Char}

theorem splitAtFirst_of_forall (h : ∀ c ∈ cs, p c = false) : splitAtFirst p cs = (cs, none) := by
  have hnone : cs.dropWhile (!p ·) = [] := by
    rw [List.dropWhile_eq_nil_iff]
    intro c hc
    rw [h c hc]
    rfl
  rw [splitAtFirst, hnone]

theorem splitAtFirst_append (h : ∀ c ∈ cs, p c = false) (hc : p c = true) (ds : List Char) :
    splitAtFirst p (cs ++ c :: ds) = (cs, some ds) := by
  have hpass : ∀ d ∈ cs, (!p d) = true := by
    intro d hd
    rw [h d hd]
    rfl
  have hstop : ¬ (!p c) = true := by
    rw [hc]
    exact Bool.false_ne_true
  have hdrop : (cs ++ c :: ds).dropWhile (!p ·) = c :: ds := by
    rw [List.dropWhile_append_of_pos hpass, List.dropWhile_cons_of_neg (p := (!p ·)) hstop]
  have htake : (cs ++ c :: ds).takeWhile (!p ·) = cs := by
    rw [List.takeWhile_append_of_pos hpass, List.takeWhile_cons_of_neg (p := (!p ·)) hstop, List.append_nil]
  rw [splitAtFirst, hdrop]
  dsimp only
  rw [htake]

theorem noMark_of_isDigits (h : isDigits ds = true) : ∀ c ∈ ds, (c == 'e' || c == 'E') = false := by
  intro c hc
  rw [Bool.or_eq_false_iff, beq_eq_false_iff_ne, beq_eq_false_iff_ne]
  exact ⟨ne_of_isDigits h rfl c hc, ne_of_isDigits h rfl c hc⟩

theorem noPoint_of_isDigits (h : isDigits ds = true) : ∀ c ∈ ds, (c == '.') = false :=
  fun c hc => beq_eq_false_iff_ne.2 (ne_of_isDigits h rfl c hc)

/-- A point that is set before some of the digits, perhaps behind zeros, does not change them. -/
theorem exists_positional_eq {places : Nat} (hds : isDigits ds = true) (hne : ds ≠ [])
    (hplaces : places ≠ 0) :
    ∃ whole fraction, positional ds places = whole ++ '.' :: fraction ∧
      isDigits whole = true ∧ whole ≠ [] ∧ isDigits fraction = true ∧
      Integer.ofDigits (whole ++ fraction) = Integer.ofDigits ds ∧ fraction.length = places := by
  have hlength : 0 < ds.length := List.length_pos_iff.2 hne
  rw [positional, if_neg hplaces]
  by_cases hinside : places < ds.length
  · have hsplit := List.take_append_drop (ds.length - places) ds
    obtain ⟨hwhole, hfraction⟩ := isDigits_append.1 (hsplit.symm ▸ hds)
    have htake : ds.take (ds.length - places) ≠ [] := by
      rw [← List.length_pos_iff, List.length_take]
      omega
    refine ⟨_, _, if_pos hinside, hwhole, htake, hfraction, by rw [hsplit], ?_⟩
    rw [List.length_drop]
    omega
  · refine ⟨['0'], List.replicate (places - ds.length) '0' ++ ds, if_neg hinside, rfl,
      List.cons_ne_nil _ _, isDigits_append.2 ⟨isDigits_replicate _, hds⟩, ?_, ?_⟩
    · show Integer.ofDigits (List.replicate 1 '0' ++ (List.replicate (places - ds.length) '0' ++ ds)) = _
      rw [Integer.ofDigits_zeros_append, Integer.ofDigits_zeros_append]
    · rw [List.length_append, List.length_replicate]
      omega

end Decimal

namespace Double

open Integer Decimal

/-- Digits with a point among them, and perhaps a signed exponent. -/
structure Pointed where
  whole : List Char
  fraction : List Char
  /-- Whether the exponent is negative, and its digits. -/
  exponent? : Option (Bool × List Char)
  whole_isDigits : isDigits whole = true
  whole_ne_nil : whole ≠ []
  fraction_isDigits : isDigits fraction = true
  exponent_isDigits : ∀ x ∈ exponent?, isDigits x.2 = true
  exponent_ne_nil : ∀ x ∈ exponent?, x.2 ≠ []

namespace Pointed

/-- A number without an exponent. -/
def plain (whole fraction : List Char) (hwhole : isDigits whole = true) (hne : whole ≠ [])
    (hfraction : isDigits fraction = true) : Pointed where
  whole
  fraction
  exponent? := none
  whole_isDigits := hwhole
  whole_ne_nil := hne
  fraction_isDigits := hfraction
  exponent_isDigits := by
    intro x hx
    cases hx
  exponent_ne_nil := by
    intro x hx
    cases hx

variable (p : Pointed)

/-- The exponent as it is written. -/
def ending : List Char :=
  match p.exponent? with
  | none => []
  | some (negative, ds) => 'e' :: (if negative then '-' else '+') :: ds

/-- The number as it is written. -/
def text : List Char := p.whole ++ '.' :: (p.fraction ++ p.ending)

/-- The number of all digits before the exponent. -/
def coefficient : Nat := ofDigits (p.whole ++ p.fraction)

/-- The exponent of the last digit before the exponent. -/
def exponent : Int :=
  ((p.exponent?.map fun x => signed x.1 (ofDigits x.2)).getD 0) - p.fraction.length

/-! ## Characters -/

/-- A character of a number: a digit, the point, the mark of an exponent or a sign. -/
def isNumeral (c : Char) : Bool := c.isDigit || ['.', 'e', '-', '+'].contains c

theorem isNumeral_of_isDigit {c : Char} (h : c.isDigit = true) : isNumeral c = true := by
  rw [isNumeral, h, Bool.true_or]

/-- What holds of digits and of the four other characters holds of all characters of numbers. -/
theorem of_isNumeral {P : Char → Prop} [DecidablePred P] (hdigit : ∀ c, c.isDigit = true → P c)
    (hothers : (['.', 'e', '-', '+'].all fun c => P c) = true) {c : Char} (h : isNumeral c = true) :
    P c :=
  of_isDigit_or hdigit hothers h

theorem ending_isNumeral : ∀ c ∈ p.ending, isNumeral c = true := by
  intro c hc
  unfold ending at hc
  split at hc
  · exact absurd hc List.not_mem_nil
  · next negative ds heq =>
    rcases List.mem_cons.1 hc with rfl | hc
    · rfl
    rcases List.mem_cons.1 hc with rfl | hc
    · cases negative <;> rfl
    have hds := p.exponent_isDigits _ heq
    rw [isDigits, List.all_eq_true] at hds
    exact isNumeral_of_isDigit (hds c hc)

theorem text_isNumeral : ∀ c ∈ p.text, isNumeral c = true := by
  have hwhole := p.whole_isDigits
  have hfraction := p.fraction_isDigits
  rw [isDigits, List.all_eq_true] at hwhole hfraction
  intro c hc
  rcases List.mem_append.1 hc with hc | hc
  · exact isNumeral_of_isDigit (hwhole c hc)
  rcases List.mem_cons.1 hc with rfl | hc
  · rfl
  rcases List.mem_append.1 hc with hc | hc
  · exact isNumeral_of_isDigit (hfraction c hc)
  · exact p.ending_isNumeral c hc

theorem exists_text_eq_cons : ∃ c cs, p.text = c :: cs ∧ c.isDigit = true := by
  obtain ⟨c, w, hw⟩ := List.exists_cons_of_ne_nil p.whole_ne_nil
  have hwhole := p.whole_isDigits
  rw [hw] at hwhole
  exact ⟨c, _, by rw [text, hw]; rfl, (isDigits_cons.1 hwhole).1⟩

/-! ## Reading -/

theorem exponentOf?_ending : exponentOf? (p.exponent?.map fun x =>
    (if x.1 then '-' else '+') :: x.2) =
      some ((p.exponent?.map fun x => signed x.1 (ofDigits x.2)).getD 0) := by
  rcases hexponent : p.exponent? with _ | ⟨negative, ds⟩
  · rfl
  · have hne : ds ≠ [] := p.exponent_ne_nil _ hexponent
    have hds : isDigits ds = true := p.exponent_isDigits _ hexponent
    have hempty : ds.isEmpty = false := by simpa using hne
    have hsign : splitSign ((if negative then '-' else '+') :: ds) = (negative, ds) := by
      cases negative <;> rfl
    simp only [Option.map_some, exponentOf?, hsign, hempty, Bool.false_eq_true, if_false,
      natOf?_digits hds, Option.getD_some]

theorem splitAtFirst_text : splitAtFirst (fun c => c == 'e' || c == 'E') p.text =
    (p.whole ++ '.' :: p.fraction,
      p.exponent?.map fun x => (if x.1 then '-' else '+') :: x.2) := by
  have hmantissa : ∀ c ∈ p.whole ++ '.' :: p.fraction, (c == 'e' || c == 'E') = false := by
    intro c hc
    rcases List.mem_append.1 hc with hc | hc
    · exact noMark_of_isDigits p.whole_isDigits c hc
    rcases List.mem_cons.1 hc with rfl | hc
    · rfl
    · exact noMark_of_isDigits p.fraction_isDigits c hc
  have hassoc : p.text = (p.whole ++ '.' :: p.fraction) ++ p.ending := by
    rw [text, List.append_assoc]
    rfl
  rw [hassoc]
  unfold ending
  rcases p.exponent? with _ | ⟨negative, ds⟩
  · dsimp only
    rw [List.append_nil]
    exact splitAtFirst_of_forall hmantissa
  · exact splitAtFirst_append hmantissa rfl _

theorem readPlain?_text : readPlain? p.text = some (ofScientific false p.coefficient p.exponent) := by
  obtain ⟨c, cs, htext, hc⟩ := p.exists_text_eq_cons
  have hhead : ∀ d : Char, d.isDigit = false → p.text.head? ≠ some d := by
    intro d hd hsome
    rw [htext] at hsome
    exact ne_of_isDigit hc hd (Option.some.inj hsome)
  have hsign : splitSign p.text = (false, p.text) := by
    refine splitSign_of_isDigit ?_
    intro d hd
    rw [htext] at hd
    cases hd
    exact hc
  have hlower : p.text.map Char.toLower = p.text := by
    refine (List.map_congr_left fun d hd => ?_).trans (List.map_id _)
    exact of_isNumeral (fun d hd => toLower_of_isDigit hd) (by decide) (p.text_isNumeral d hd)
  have hdot : ∀ d ∈ p.whole, (d == '.') = false := noPoint_of_isDigits p.whole_isDigits
  have hdigits : isDigits (p.whole ++ p.fraction) = true :=
    isDigits_append.2 ⟨p.whole_isDigits, p.fraction_isDigits⟩
  have hempty : (p.whole ++ p.fraction).isEmpty = false := by
    simp [p.whole_ne_nil]
  unfold readPlain?
  rw [hsign]
  dsimp only
  rw [hlower]
  split
  · next heq => exact absurd (congrArg List.head? heq) (hhead 'n' rfl)
  · next heq => exact absurd (congrArg List.head? heq) (hhead 'i' rfl)
  · next heq => exact absurd (congrArg List.head? heq) (hhead 'i' rfl)
  · rw [p.splitAtFirst_text]
    dsimp only
    rw [p.exponentOf?_ending, splitAtFirst_append hdot (beq_self_eq_true '.')]
    simp only [Option.bind_eq_bind, Option.bind_some, Option.getD_some, natOf?_digits hdigits, hempty,
      Bool.false_eq_true, if_false]
    rfl

/-- **A number with a point is read** as the double nearest to it. -/
theorem read?_text : read? p.text = some (ofScientific false p.coefficient p.exponent) := by
  have hblank : ∀ d ∈ p.text, isBlank d = false := fun d hd =>
    of_isNumeral (fun d hd => isBlank_of_isDigit hd) (by decide) (p.text_isNumeral d hd)
  have hstrip : strip p.text = p.text :=
    strip_eq_self (fun d hd => hblank d (List.mem_of_mem_head? hd))
      fun d hd => hblank d (List.mem_of_getLast? hd)
  have hascii : p.text.map asciiDigit = p.text := by
    refine (List.map_congr_left fun d hd => ?_).trans (List.map_id _)
    exact of_isNumeral (fun d hd => asciiDigit_of_isDigit hd) (by decide +kernel)
      (p.text_isNumeral d hd)
  have hgap : '_' ∉ p.text := fun hmem => absurd (p.text_isNumeral _ hmem) (by decide)
  unfold read?
  rw [hstrip, hascii, ungroup?_eq_self hgap]
  exact p.readPlain?_text

end Pointed

/-! ## Writing -/

variable {ds : List Char} {e : Int}

theorem isDigits_padZeros (width : Nat) (h : isDigits ds = true) :
    isDigits (padZeros width ds) = true :=
  isDigits_append.2 ⟨isDigits_replicate _, h⟩

/-- Some characters are a number with a point that stands for digits and an exponent. -/
def Pointed.Shows (cs ds : List Char) (e : Int) : Prop :=
  ∃ (p : Pointed) (k : Nat), cs = p.text ∧ p.coefficient = ofDigits ds * 10 ^ k ∧ p.exponent + k = e

theorem Pointed.shows_zeros (hds : isDigits ds = true) (hne : ds ≠ []) (n : Nat) :
    Shows (ds ++ List.replicate n '0' ++ ['.', '0']) ds n := by
  refine ⟨.plain (ds ++ List.replicate n '0') ['0'] (isDigits_append.2 ⟨hds, isDigits_replicate _⟩)
    (by simp [hne]) rfl, n + 1, rfl, ?_, ?_⟩
  · show ofDigits (ds ++ List.replicate n '0' ++ ['0']) = _
    rw [List.append_assoc, ← List.replicate_succ', ofDigits_append_zeros]
  · show (0 : Int) - 1 + ((n + 1 : Nat) : Int) = n
    omega

theorem Pointed.shows_positional (hds : isDigits ds = true) (hne : ds ≠ []) {places : Nat}
    (hplaces : places ≠ 0) : Shows (positional ds places) ds (-(places : Int)) := by
  obtain ⟨whole, fraction, htext, hwhole, hsome, hfraction, hvalue, hlength⟩ :=
    exists_positional_eq hds hne hplaces
  refine ⟨.plain whole fraction hwhole hsome hfraction, 0, ?_, ?_, ?_⟩
  · rw [htext]
    simp [Pointed.plain, Pointed.text, Pointed.ending]
  · show ofDigits (whole ++ fraction) = _
    rw [hvalue, Nat.pow_zero, Nat.mul_one]
  · show (0 : Int) - fraction.length + ((0 : Nat) : Int) = _
    omega

/-- Behind the first digit the point stands, and the exponent is that of the first digit. -/
theorem Pointed.shows_scientific {d d' : Char} (hds : isDigits (d :: d' :: ds) = true) (first : Int) :
    Shows (d :: '.' :: d' :: ds ++ 'e' :: (if first < 0 then '-' else '+') ::
      padZeros 2 (digits first.natAbs)) (d :: d' :: ds) (first - (d' :: ds).length) := by
  obtain ⟨hd, hfraction⟩ := isDigits_cons.1 hds
  refine ⟨⟨[d], d' :: ds, some (decide (first < 0), padZeros 2 (digits first.natAbs)),
    isDigits_cons.2 ⟨hd, rfl⟩, List.cons_ne_nil _ _, hfraction, ?_, ?_⟩, 0, ?_, ?_, ?_⟩
  · intro x hx
    cases hx
    exact isDigits_padZeros _ (isDigits_digits _)
  · intro x hx
    cases hx
    simp [padZeros, digits_ne_nil]
  · simp [Pointed.text, Pointed.ending]
  · show ofDigits ([d] ++ d' :: ds) = _
    rw [Nat.pow_zero, Nat.mul_one]
    rfl
  · show signed (decide (first < 0)) (ofDigits (padZeros 2 (digits first.natAbs))) -
      ((d' :: ds).length : Int) + ((0 : Nat) : Int) = _
    rw [padZeros, ofDigits_zeros_append, ofDigits_digits]
    simp only [signed, decide_eq_true_eq]
    split <;> omega

/-- A single digit with an exponent has no point. -/
theorem point_notMem_scientific {d : Char} (hd : d.isDigit = true) (first : Int) (width : Nat) :
    '.' ∉ [d] ++ 'e' :: (if first < 0 then '-' else '+') :: padZeros width (digits first.natAbs) := by
  have hexponent := isDigits_padZeros width (isDigits_digits first.natAbs)
  rw [isDigits, List.all_eq_true] at hexponent
  intro hmem
  rcases List.mem_cons.1 hmem with rfl | hmem
  · cases hd
  rcases List.mem_cons.1 hmem with hmem | hmem
  · cases hmem
  rcases List.mem_cons.1 hmem with hmem | hmem
  · split at hmem <;> cases hmem
  · exact absurd (hexponent _ hmem) (by decide)

/-- Digits that are set out with a point stand for the same number as before. -/
theorem shows_write (hds : isDigits ds = true) (hne : ds ≠ []) (hpoint : '.' ∈ layout.write ds e) :
    Pointed.Shows (layout.write ds e) ds e := by
  unfold Layout.write at hpoint ⊢
  dsimp only at hpoint ⊢
  split at hpoint
  · next hpositional =>
    rw [if_pos hpositional]
    by_cases he : 0 ≤ e
    · have hshows := Pointed.shows_zeros hds hne e.natAbs
      rw [Int.natAbs_of_nonneg he] at hshows
      rw [if_pos he]
      exact hshows
    · have hplaces : e.natAbs ≠ 0 := by omega
      have hexponent : -(e.natAbs : Int) = e := by omega
      have hshows := Pointed.shows_positional hds hne hplaces
      rw [hexponent] at hshows
      rw [if_neg he]
      exact hshows
  · next hscientific =>
    rw [if_neg hscientific]
    obtain ⟨d, ds, rfl⟩ := List.exists_cons_of_ne_nil hne
    cases ds with
    | nil => exact absurd hpoint (point_notMem_scientific (isDigits_cons.1 hds).1 _ _)
    | cons d' ds =>
      have hshows := Pointed.shows_scientific hds (e + (d :: d' :: ds).length - 1)
      have hexponent : e + ((d :: d' :: ds).length : Int) - 1 - ((d' :: ds).length : Int) = e := by
        simp only [List.length_cons]
        omega
      rw [hexponent] at hshows
      exact hshows

/-- **A finite double whose text has a point** is the sign and the double nearest to a number with a
point. -/
theorem exists_pointed {negative : Bool} {rank : Nat} {h : rank < 2047 * 2 ^ 52}
    (hpoint : '.' ∈ (Double.finite negative rank h).text) :
    ∃ p : Pointed, (Double.finite negative rank h).text = signText negative ++ p.text ∧
      ofScientific false p.coefficient p.exponent = .finite false rank h := by
  have hrank : '.' ∈ rankText rank := by
    rcases List.mem_append.1 hpoint with hmem | hmem
    · cases negative <;> simp [signText] at hmem
    · exact hmem
  have htext : (Double.finite negative rank h).text = signText negative ++ rankText rank := rfl
  rw [htext]
  unfold rankText at hrank ⊢
  split
  · next hzero =>
    subst hzero
    have hread : ofScientific false 0 (-1) = zero false := by decide
    refine ⟨.plain ['0'] ['0'] rfl (List.cons_ne_nil _ _) rfl, rfl, hread.trans ?_⟩
    rw [zero, ofRank, dif_pos h]
  · next hpos =>
    rw [if_neg hpos] at hrank
    have hread := readsBack_shortestDigits (Nat.pos_of_ne_zero hpos)
    dsimp only at hrank ⊢
    generalize shortestDigits rank = shortest at hrank hread ⊢
    obtain ⟨p, k, hp, hcoefficient, hexponent⟩ :=
      shows_write (isDigits_digits _) (digits_ne_nil _) hrank
    rw [ofDigits_digits] at hcoefficient
    refine ⟨p, congrArg _ hp, ?_⟩
    refine ofScientific_of_readsBack (Nat.pos_of_ne_zero hpos) h ?_ false
    rw [hcoefficient]
    rw [← hexponent] at hread
    simp only [readsBack, compareHalf_mul]
    exact hread

theorem exists_pointed_of_isFinite {x : Double} (hfinite : x.isFinite = true) (hpoint : '.' ∈ x.text) :
    ∃ negative rank h, ∃ p : Pointed, x = .finite negative rank h ∧
      x.text = signText negative ++ p.text ∧
      ofScientific false p.coefficient p.exponent = .finite false rank h := by
  cases x with
  | infinity => cases hfinite
  | nan => cases hfinite
  | finite negative rank h =>
    obtain ⟨p, htext, hvalue⟩ := exists_pointed hpoint
    exact ⟨negative, rank, h, p, rfl, htext, hvalue⟩

end Double
end Stencil
