import Stencil.Proofs.Number.Pointed

/-!
# Written numbers are read back

**Integers.** The text of an integer within the limit is read as the integer (`Integer.read?_text`).

**Decimals.** A `Numeral` is a text of digits, perhaps with a point behind some of them and with an
exponent. It is read as its digits without the point, with the exponent of the last of them. The
text of a finite decimal is such a text in either notation, and its digits and exponent are those of
the decimal (`exists_numeral`). So it is read as the decimal as long as the exponents keep their
range (`Decimal.read?_text`); other decimals are no result of reading (`isInRange_of_read?`).

Blanks around a text make no difference to either.
-/

namespace Stencil

open Text

@[simp] theorem Integer.signed_natAbs (n : Int) : signed (decide (n < 0)) n.natAbs = n := by
  unfold signed
  by_cases h : n < 0
  · rw [decide_eq_true h, if_pos rfl]
    omega
  · rw [decide_eq_false h, if_neg Bool.false_ne_true]
    omega

/-- A sign in front of a text that has none is split off. -/
theorem Integer.splitSign_signText (negative : Bool) {cs : List Char} (hminus : cs.head? ≠ some '-')
    (hplus : cs.head? ≠ some '+') : splitSign (Decimal.signText negative ++ cs) = (negative, cs) := by
  cases negative with
  | true => rfl
  | false =>
    show splitSign cs = (false, cs)
    unfold splitSign
    split
    · exact absurd rfl hminus
    · exact absurd rfl hplus
    · rfl

namespace Decimal

/-! ## Characters -/

/-- The characters of written numbers that are no digits. -/
def marks : List Char := "-+.EInfityNas".toList

/-- A character of a written number. -/
def isWritten (c : Char) : Bool := c.isDigit || marks.contains c

variable {c : Char} {cs ds : List Char}

theorem isBlank_of_isWritten (h : isWritten c = true) : isBlank c = false :=
  of_isDigit_or (fun _ hd => isBlank_of_isDigit hd) (by decide) h

theorem asciiDigit_of_isWritten (h : isWritten c = true) : asciiDigit c = c :=
  of_isDigit_or (P := fun c => asciiDigit c = c) (fun _ hd => asciiDigit_of_isDigit hd)
    (by decide +kernel) h

theorem ne_underscore_of_isWritten (h : isWritten c = true) : c ≠ '_' :=
  of_isDigit_or (P := (· ≠ '_')) (fun _ hd => ne_of_isDigit hd rfl) (by decide) h

/-- All characters of a text are those of written numbers. -/
def IsWritten (cs : List Char) : Prop := ∀ c ∈ cs, isWritten c = true

theorem IsWritten.append (h : IsWritten cs) (h' : IsWritten ds) : IsWritten (cs ++ ds) :=
  fun c hc => (List.mem_append.1 hc).elim (h c) (h' c)

theorem IsWritten.cons (h : isWritten c = true) (h' : IsWritten cs) : IsWritten (c :: cs) :=
  List.forall_mem_cons.2 ⟨h, h'⟩

theorem IsWritten.of_isDigits (h : isDigits cs = true) : IsWritten cs := by
  intro c hc
  rw [isDigits, List.all_eq_true] at h
  rw [isWritten, h c hc, Bool.true_or]

theorem IsWritten.strip_eq (h : IsWritten cs) : strip cs = cs :=
  strip_eq_self (fun c hc => isBlank_of_isWritten (h c (List.mem_of_mem_head? hc)))
    fun c hc => isBlank_of_isWritten (h c (List.mem_of_getLast? hc))

theorem IsWritten.map_asciiDigit (h : IsWritten cs) : cs.map asciiDigit = cs :=
  (List.map_congr_left fun c hc => asciiDigit_of_isWritten (h c hc)).trans (List.map_id cs)

theorem isWritten_signText (negative : Bool) : IsWritten (signText negative) := by
  cases negative
  · exact List.forall_mem_nil _
  · exact List.forall_mem_singleton.2 rfl

theorem isWritten_digits (n : Nat) : IsWritten (Integer.digits n) :=
  .of_isDigits (Integer.isDigits_digits n)

end Decimal

/-! ## Integers -/

section Integers

variable {before after : List Char} (hbefore : ∀ c ∈ before, isBlank c = true)
  (hafter : ∀ c ∈ after, isBlank c = true)
include hbefore hafter

/-- **The text of an integer within the limit is read as the integer**, also between blanks. -/
theorem Integer.read?_text {n : Int} (h : isWritable n = true) :
    read? 10 (before ++ text n ++ after) = some n := by
  have hdigits := isDigits_digits n.natAbs
  have hlength : (digits n.natAbs).length ≤ digitLimit :=
    (length_digits_le_iff (by decide)).2 (of_decide_eq_true h)
  have hwritten : Decimal.IsWritten (text n) := by
    rw [text_eq_signText]
    exact (Decimal.isWritten_signText _).append (Decimal.isWritten_digits _)
  have hhead : ∀ d : Char, d.isDigit = false → (digits n.natAbs).head? ≠ some d := by
    intro d hd hsome
    exact ne_of_isDigit (head?_isDigit hdigits d hsome) hd rfl
  have hsign := splitSign_signText (decide (n < 0)) (hhead '-' rfl) (hhead '+' rfl)
  unfold read?
  rw [strip_padded hbefore hafter, hwritten.strip_eq, hwritten.map_asciiDigit, text_eq_signText, hsign]
  dsimp only
  rw [dropBaseMark_ten hdigits, magnitude?_of_digits hdigits (digits_ne_nil _) hlength,
    ofDigits_digits]
  rw [Option.map_some, signed_natAbs]

end Integers

/-! ## Finite decimals -/

namespace Decimal

open Integer

/-- Digits, perhaps with a point and with an exponent behind them. -/
structure Numeral where
  whole : List Char
  /-- The digits behind the point. -/
  fraction? : Option (List Char)
  exponent? : Option Int
  whole_isDigits : isDigits whole = true
  whole_ne_nil : whole ≠ []
  fraction_isDigits : isDigits (fraction?.getD []) = true

namespace Numeral

variable (p : Numeral)

/-- The digits with the point as they are written. -/
def mantissa : List Char := p.whole ++ (p.fraction?.map ('.' :: ·)).getD []

/-- The numeral as it is written. -/
def text : List Char := p.mantissa ++ (p.exponent?.map fun e => 'E' :: exponentText e).getD []

/-- The number of all digits. -/
def coefficient : Nat := ofDigits (p.whole ++ p.fraction?.getD [])

/-- The exponent of the last digit. -/
def lastExponent : Int := p.exponent?.getD 0 - (p.fraction?.getD []).length

/-! ### Reading -/

theorem isDigits_all : isDigits (p.whole ++ p.fraction?.getD []) = true :=
  isDigits_append.2 ⟨p.whole_isDigits, p.fraction_isDigits⟩

theorem exponentOf?_text (e : Int) : exponentOf? (some (exponentText e)) = some e := by
  have hsign : splitSign (exponentText e) = (decide (e < 0), digits e.natAbs) := by
    by_cases he : e < 0 <;> simp [exponentText, splitSign, he]
  have hempty : (digits e.natAbs).isEmpty = false := by simp [digits_ne_nil]
  simp only [exponentOf?, hsign, hempty, Bool.false_eq_true, if_false, natOf?_digits (isDigits_digits _),
    ofDigits_digits, Option.map_some, signed_natAbs]

theorem mantissa_noMark : ∀ c ∈ p.mantissa, (c == 'e' || c == 'E') = false := by
  intro c hc
  have hfraction := p.fraction_isDigits
  rcases List.mem_append.1 hc with hc | hc
  · exact noMark_of_isDigits p.whole_isDigits c hc
  · cases hf : p.fraction? with
    | none => simp [hf] at hc
    | some fraction =>
      rw [hf] at hc hfraction
      rcases List.mem_cons.1 hc with rfl | hc
      · rfl
      · exact noMark_of_isDigits hfraction c hc

theorem splitAtFirst_text : splitAtFirst (fun c => c == 'e' || c == 'E') p.text =
    (p.mantissa, p.exponent?.map exponentText) := by
  unfold text
  cases p.exponent? with
  | none =>
    rw [Option.map_none, Option.getD_none, List.append_nil]
    exact splitAtFirst_of_forall p.mantissa_noMark
  | some e => exact splitAtFirst_append p.mantissa_noMark rfl _

theorem splitAtFirst_mantissa : splitAtFirst (· == '.') p.mantissa = (p.whole, p.fraction?) := by
  have hwhole : ∀ c ∈ p.whole, (c == '.') = false := noPoint_of_isDigits p.whole_isDigits
  unfold mantissa
  cases p.fraction? with
  | none =>
    rw [Option.map_none, Option.getD_none, List.append_nil]
    exact splitAtFirst_of_forall hwhole
  | some fraction => exact splitAtFirst_append hwhole rfl _

theorem exponentOf?_exponent : exponentOf? (p.exponent?.map exponentText) = some (p.exponent?.getD 0) := by
  cases p.exponent? with
  | none => rfl
  | some e => exact exponentOf?_text e

/-- **A numeral is read** as its digits and the exponent of the last of them. -/
theorem readFinite?_text (negative : Bool) (h : inRange p.coefficient p.lastExponent = true) :
    readFinite? negative p.text = some (.finite negative p.coefficient p.lastExponent) := by
  have hempty : (p.whole ++ p.fraction?.getD []).isEmpty = false := by simp [p.whole_ne_nil]
  have hvalue : natOf? (p.whole ++ p.fraction?.getD []) = some p.coefficient :=
    natOf?_digits p.isDigits_all
  unfold lastExponent at h
  unfold readFinite? lastExponent
  simp only [p.splitAtFirst_text, p.exponentOf?_exponent, p.splitAtFirst_mantissa, hvalue, hempty, h,
    Option.bind_eq_bind, Option.bind_some, Bool.not_false, Bool.and_self, if_true]

theorem isWritten_text : IsWritten p.text := by
  have hmantissa : IsWritten p.mantissa := by
    refine (IsWritten.of_isDigits p.whole_isDigits).append ?_
    have hfraction := p.fraction_isDigits
    cases hf : p.fraction? with
    | none => exact List.forall_mem_nil _
    | some fraction =>
      rw [hf] at hfraction
      exact .cons rfl (.of_isDigits hfraction)
  refine hmantissa.append ?_
  cases p.exponent? with
  | none => exact List.forall_mem_nil _
  | some e =>
    refine .cons rfl (.cons ?_ (isWritten_digits _))
    split <;> rfl

theorem exists_text_eq_cons : ∃ c cs, p.text = c :: cs ∧ c.isDigit = true := by
  obtain ⟨c, w, hw⟩ := List.exists_cons_of_ne_nil p.whole_ne_nil
  have hwhole := p.whole_isDigits
  rw [hw] at hwhole
  exact ⟨c, _, by rw [text, mantissa, hw]; rfl, (isDigits_cons.1 hwhole).1⟩

theorem readPlain?_text (negative : Bool) :
    readPlain? (signText negative ++ p.text) = readFinite? negative p.text := by
  obtain ⟨c, cs, htext, hc⟩ := p.exists_text_eq_cons
  have hne : ∀ d : Char, d.isDigit = false → c ≠ d := fun d hd => ne_of_isDigit hc hd
  have hhead : ∀ d : Char, d.isDigit = false → p.text.head? ≠ some d := by
    intro d hd hsome
    rw [htext] at hsome
    exact hne d hd (Option.some.inj hsome)
  unfold readPlain?
  rw [splitSign_signText negative (hhead '-' rfl) (hhead '+' rfl)]
  dsimp only
  rw [htext, List.map_cons, toLower_of_isDigit hc]
  split
  · next heq => exact absurd (List.cons.inj heq).1 (hne 'n' rfl)
  · next heq => exact absurd (List.cons.inj heq).1 (hne 's' rfl)
  · next heq => exact absurd (List.cons.inj heq).1 (hne 'i' rfl)
  · next heq => exact absurd (List.cons.inj heq).1 (hne 'i' rfl)
  · rfl

end Numeral

/-! ### Writing -/

/-- Digits that are set out positionally. -/
theorem exists_positional {ds : List Char} (hds : isDigits ds = true) (hne : ds ≠ []) (places : Nat) :
    ∃ p : Numeral, positional ds places = p.text ∧ p.coefficient = ofDigits ds ∧
      p.lastExponent = -(places : Int) := by
  by_cases hzero : places = 0
  · subst hzero
    refine ⟨⟨ds, none, none, hds, hne, rfl⟩, ?_, ?_, rfl⟩
    · simp [Numeral.text, Numeral.mantissa, positional]
    · simp [Numeral.coefficient]
  · obtain ⟨whole, fraction, htext, hwhole, hsome, hfraction, hvalue, hlength⟩ :=
      exists_positional_eq hds hne hzero
    refine ⟨⟨whole, some fraction, none, hwhole, hsome, hfraction⟩, ?_, hvalue, ?_⟩
    · rw [htext]
      simp [Numeral.text, Numeral.mantissa]
    · show (0 : Int) - fraction.length = _
      omega

/-- Digits that are set out with an exponent. -/
theorem exists_scientific {ds : List Char} (hds : isDigits ds = true) (hne : ds ≠ []) (e : Int) :
    ∃ p : Numeral, scientific ds e = p.text ∧ p.coefficient = ofDigits ds ∧
      p.lastExponent = e - ds.length + 1 := by
  obtain ⟨d, ds, rfl⟩ := List.exists_cons_of_ne_nil hne
  cases ds with
  | nil =>
    refine ⟨⟨[d], none, some e, hds, hne, rfl⟩, rfl, rfl, ?_⟩
    show e - (0 : Nat) = e - (1 : Nat) + 1
    omega
  | cons d' ds =>
    obtain ⟨hd, hfraction⟩ := isDigits_cons.1 hds
    refine ⟨⟨[d], some (d' :: ds), some e, isDigits_cons.2 ⟨hd, rfl⟩, List.cons_ne_nil _ _,
      hfraction⟩, ?_, rfl, ?_⟩
    · simp [Numeral.text, Numeral.mantissa, scientific]
    · show e - ((d' :: ds).length : Int) = e - ((d :: d' :: ds).length : Int) + 1
      simp only [List.length_cons]
      omega

/-- The text of a finite decimal is a sign and a numeral with its digits and its exponent. -/
theorem exists_numeral (negative : Bool) (c : Nat) (e : Int) :
    ∃ p : Numeral, (finite negative c e).text = signText negative ++ p.text ∧ p.coefficient = c ∧
      p.lastExponent = e := by
  have hds := isDigits_digits c
  have hne := digits_ne_nil c
  unfold text
  dsimp only
  split
  · next h =>
    have he : e ≤ 0 := by
      rw [Bool.and_eq_true, decide_eq_true_eq] at h
      exact h.1
    obtain ⟨p, htext, hc, hlast⟩ := exists_positional hds hne e.natAbs
    refine ⟨p, by rw [htext], by rw [hc, ofDigits_digits], ?_⟩
    rw [hlast]
    omega
  · obtain ⟨p, htext, hc, hlast⟩ := exists_scientific hds hne (adjusted c e)
    refine ⟨p, by rw [htext], by rw [hc, ofDigits_digits], ?_⟩
    rw [hlast]
    unfold adjusted digitCount
    omega

/-! ## All decimals -/

/-- The exponents of a decimal keep the range. -/
def isInRange : Decimal → Bool
  | finite _ coefficient exponent => inRange coefficient exponent
  | _ => true

theorem isWritten_text (d : Decimal) : IsWritten d.text := by
  cases d with
  | finite negative c e =>
    obtain ⟨p, htext, -, -⟩ := exists_numeral negative c e
    rw [htext]
    exact (isWritten_signText negative).append p.isWritten_text
  | infinity negative =>
    exact (isWritten_signText negative).append (List.all_eq_true.1 rfl)
  | nan negative signaling payload =>
    refine ((isWritten_signText negative).append ?_).append ?_
    · cases signaling <;> exact List.all_eq_true.1 rfl
    · split
      · exact List.forall_mem_nil _
      · exact isWritten_digits payload

/-- The digits of a payload; there are none of zero. -/
theorem natOf?_payload (payload : Nat) :
    natOf? (if payload = 0 then [] else digits payload) = some payload := by
  split
  · next h => rw [h]; rfl
  · rw [natOf?_digits (isDigits_digits payload), ofDigits_digits]

theorem readPlain?_text {d : Decimal} (h : d.isInRange = true) : readPlain? d.text = some d := by
  cases d with
  | finite negative c e =>
    obtain ⟨p, htext, rfl, rfl⟩ := exists_numeral negative c e
    rw [htext, p.readPlain?_text, p.readFinite?_text negative h]
  | infinity negative => cases negative <;> rfl
  | nan negative signaling payload =>
    have hpayload := natOf?_payload payload
    have hdigits : isDigits (if payload = 0 then [] else digits payload) = true := by
      split
      · rfl
      · exact isDigits_digits payload
    show readPlain? (signText negative ++ (if signaling then "sNaN" else "NaN").toList ++
      if payload = 0 then [] else digits payload) = _
    generalize (if payload = 0 then [] else digits payload) = ds at hpayload hdigits ⊢
    have hlower : ds.map Char.toLower = ds := by
      rw [isDigits, List.all_eq_true] at hdigits
      exact (List.map_congr_left fun c hc => toLower_of_isDigit (hdigits c hc)).trans (List.map_id ds)
    cases negative <;> cases signaling <;>
      simp [signText, readPlain?, splitSign, hlower, hpayload]

/-- **The text of a decimal is read as the decimal**, also between blanks: with its sign, its digits
and its exponent, or as the infinity or not-a-number that it is. -/
theorem read?_text {d : Decimal} (h : d.isInRange = true) {before after : List Char}
    (hbefore : ∀ c ∈ before, isBlank c = true) (hafter : ∀ c ∈ after, isBlank c = true) :
    read? (before ++ d.text ++ after) = some d := by
  have hwritten := d.isWritten_text
  have hgaps : d.text.filter (· != '_') = d.text := by
    rw [List.filter_eq_self]
    intro c hc
    rw [bne_iff_ne]
    exact ne_underscore_of_isWritten (hwritten c hc)
  rw [read?, strip_padded hbefore hafter, hwritten.strip_eq, hgaps, hwritten.map_asciiDigit]
  exact readPlain?_text h

/-- What is read keeps the range. -/
theorem isInRange_of_read? {cs : List Char} {d : Decimal} (h : read? cs = some d) :
    d.isInRange = true := by
  unfold read? readPlain? at h
  dsimp only at h
  split at h
  · obtain ⟨_, -, rfl⟩ := Option.map_eq_some_iff.1 h
    rfl
  · obtain ⟨_, -, rfl⟩ := Option.map_eq_some_iff.1 h
    rfl
  · cases h
    rfl
  · cases h
    rfl
  · simp only [readFinite?, Option.bind_eq_bind, Option.bind_eq_some_iff] at h
    obtain ⟨_, -, _, -, h⟩ := h
    split at h
    · next hrange =>
      cases h
      rw [Bool.and_eq_true] at hrange
      exact hrange.2
    · cases h

/-! ## Integers as decimals -/

/-- An integer and its decimal have one text. -/
theorem text_ofInt (n : Int) : (ofInt n).text = Integer.text n := by
  have hcount := Double.digitCount_pos n.natAbs
  have hpositional : (decide ((0 : Int) ≤ 0) && decide (-6 ≤ adjusted n.natAbs 0)) = true := by
    rw [Bool.and_eq_true, decide_eq_true_eq, decide_eq_true_eq]
    unfold adjusted
    omega
  rw [text_eq_signText]
  unfold ofInt text
  dsimp only
  rw [if_pos hpositional]
  rfl

theorem isInRange_ofInt {n : Int} (h : isWritable n = true) : (ofInt n).isInRange = true := by
  have hlength : (digits n.natAbs).length ≤ digitLimit :=
    (length_digits_le_iff (by decide)).2 (of_decide_eq_true h)
  show (decide (adjusted n.natAbs 0 ≤ maxExponent) && decide (minExponent ≤ 0)) = true
  rw [Bool.and_eq_true, decide_eq_true_eq, decide_eq_true_eq]
  unfold adjusted digitCount maxExponent minExponent
  unfold digitLimit at hlength
  omega

end Decimal

end Stencil
