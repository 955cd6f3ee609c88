import Mathlib.Tactic.IntervalCases
import Stencil.Proofs.Document.Removal
import Stencil.Proofs.Number.Pointed
import Stencil.Value.Part
import Stencil.Yaml.Flaw
import Stencil.Yaml.Represent

/-!
# Nodes stand for the values they are made of

**Tags.** The text of an integer and that of a float with a point are tagged as what they are, by
the rules for writing and by those for reading (`plainTag_integer`, `plainTag_pointed`).

**Values.** Both are read back (`Scalar.int_text`, `Scalar.float_pointed`), and so are trees of
`Restorable` values: what a node is made of is what it stands for (`valueAt_of_restorable`).
-/

namespace Stencil.Yaml

open Text Integer

variable {c : Char} {cs ds : List Char} {rules : List Rule}

/-! ## Tags of plain scalars -/

/-- The rules for writing or those for reading. -/
def IsSchema (rules : List Rule) : Prop := rules = standardRules ∨ rules = readingRules

namespace Rule

theorem applies_cons {r : Rule} (hlast : (c :: cs).getLast? ≠ some '\n') :
    r.applies (c :: cs) = (r.firsts.contains c && r.accepts (c :: cs)) := by
  unfold applies
  rw [if_neg (by simpa using hlast)]

theorem mem_digits_of_isDigit (h : c.isDigit = true) :
    c ∈ ['0', '1', '2', '3', '4', '5', '6', '7', '8', '9'] := by
  obtain ⟨hlow, hhigh⟩ := toNat_of_isDigit h
  rw [← Char.ofNat_toNat c]
  generalize c.toNat = n at hlow hhigh
  interval_cases n <;> decide

theorem contains_numberFirsts (h : c = '-' ∨ c.isDigit = true) : numberFirsts.contains c = true := by
  rcases h with rfl | h
  · rfl
  · rw [List.contains_iff_mem]
    exact List.mem_cons_of_mem _ (List.mem_cons_of_mem _ (mem_digits_of_isDigit h))

/-- Numbers begin like no boolean. -/
theorem broadBool_firsts (h : c = '-' ∨ c.isDigit = true) : broadBool.firsts.contains c = false := by
  rw [Bool.eq_false_iff]
  intro hmem
  rw [List.contains_iff_mem] at hmem
  have hnone : ∀ d ∈ broadBool.firsts, ¬ (d = '-' ∨ d.isDigit = true) :=
    List.all_iff_forall_prop.1 (by decide)
  exact hnone c hmem h

theorem unsigned_signText (negative : Bool) (hc : c.isDigit = true) :
    unsigned (Decimal.signText negative ++ c :: cs) = c :: cs := by
  cases negative with
  | true => rfl
  | false =>
    have hminus : c ≠ '-' := ne_of_isDigit hc rfl
    have hplus : c ≠ '+' := ne_of_isDigit hc rfl
    simp [Decimal.signText, unsigned, hminus, hplus]

theorem getLast?_signText (negative : Bool) (h : '\n' ∉ cs) :
    (Decimal.signText negative ++ cs).getLast? ≠ some '\n' := by
  intro hlast
  rcases List.mem_append.1 (List.mem_of_getLast? hlast) with hmem | hmem
  · cases negative <;> simp [Decimal.signText] at hmem
  · exact h hmem

end Rule

open Rule

/-- A number is tagged by the first two rules for numbers. -/
theorem plainTag_number (hrules : IsSchema rules) (hc : c = '-' ∨ c.isDigit = true)
    (hlast : (c :: cs).getLast? ≠ some '\n') (hnumber : isFloat (c :: cs) || isInt (c :: cs)) :
    plainTag rules (c :: cs) = if isFloat (c :: cs) then .float else .int := by
  have hfirst := contains_numberFirsts hc
  have hfloat : ('.' :: numberFirsts).contains c = true := by
    rw [List.contains_cons, hfirst, Bool.or_true]
  have hbool : broadBool.applies (c :: cs) = false := by
    rw [applies_cons hlast, broadBool_firsts hc, Bool.false_and]
  have hothers : ∀ others, plainTag (otherRules ++ others) (c :: cs) =
      if isFloat (c :: cs) then .float else .int := by
    intro others
    unfold plainTag otherRules
    rw [List.cons_append, List.find?_cons, applies_cons hlast, hfloat, Bool.true_and]
    dsimp only
    by_cases hpoint : isFloat (c :: cs) = true
    · rw [hpoint]
      rfl
    · rw [Bool.not_eq_true] at hpoint
      have hint : isInt (c :: cs) = true := by simpa [hpoint] using hnumber
      rw [hpoint]
      dsimp only
      rw [List.cons_append, List.find?_cons, applies_cons hlast, hfirst, Bool.true_and]
      dsimp only
      rw [hint]
      rfl
  rcases hrules with rfl | rfl
  · have hstandard : plainTag standardRules (c :: cs) = plainTag (otherRules ++ []) (c :: cs) := by
      unfold plainTag standardRules
      rw [List.find?_cons, hbool, List.append_nil]
    rw [hstandard, hothers]
  · exact hothers _

/-! ### Integers -/

theorem isDigitOrGap_of_isDigits (h : isDigits cs = true) : ∀ d ∈ cs, isDigitOrGap d = true := by
  rw [isDigits, List.all_eq_true] at h
  intro d hd
  rw [isDigitOrGap, h d hd, Bool.true_or]

theorem isInt_signText (negative : Bool) (n : Nat) :
    isInt (Decimal.signText negative ++ digits n) = true := by
  obtain ⟨c, ds, hds⟩ := List.exists_cons_of_ne_nil (digits_ne_nil n)
  have hdigits := isDigits_digits n
  rw [hds] at hdigits
  obtain ⟨hc, hrest⟩ := isDigits_cons.1 hdigits
  unfold isInt
  dsimp only
  rw [hds, unsigned_signText negative hc, ← hds]
  by_cases hn : n = 0
  · subst hn
    decide
  · have hhead := head?_digits (Nat.pos_of_ne_zero hn)
    have hgrouped : isGroupedFromOne (digits n) = true := by
      rw [hds] at hhead ⊢
      simp only [isGroupedFromOne, isGrouped, hc, Bool.true_and, Bool.and_eq_true, bne_iff_ne,
        List.all_eq_true]
      exact ⟨hhead, isDigitOrGap_of_isDigits hrest⟩
    simp [hgrouped]

theorem isFloat_signText (negative : Bool) (n : Nat) :
    isFloat (Decimal.signText negative ++ digits n) = false := by
  obtain ⟨c, ds, hds⟩ := List.exists_cons_of_ne_nil (digits_ne_nil n)
  have hdigits := isDigits_digits n
  have hc : c.isDigit = true := by
    rw [hds] at hdigits
    exact (isDigits_cons.1 hdigits).1
  have hnone : (digits n).dropWhile (· != '.') = [] := by
    rw [List.dropWhile_eq_nil_iff]
    intro d hd
    rw [bne_iff_ne]
    exact ne_of_isDigits hdigits rfl d hd
  unfold isFloat
  dsimp only
  rw [hds, unsigned_signText negative hc, ← hds, hnone]

/-- The text of an integer is tagged as one. -/
theorem plainTag_integer (hrules : IsSchema rules) (n : Int) :
    plainTag rules (Integer.text n) = .int := by
  obtain ⟨c, ds, hds⟩ := List.exists_cons_of_ne_nil (digits_ne_nil n.natAbs)
  have hlast : (Integer.text n).getLast? ≠ some '\n' := by
    have hdigits := isDigits_digits n.natAbs
    rw [isDigits, List.all_eq_true] at hdigits
    rw [text_eq_signText]
    exact getLast?_signText _ fun hmem => absurd (hdigits _ hmem) (by decide)
  have hfloat : isFloat (Integer.text n) = false := by
    rw [text_eq_signText]
    exact isFloat_signText _ _
  have hint : isInt (Integer.text n) = true := by
    rw [text_eq_signText]
    exact isInt_signText _ _
  obtain ⟨d, cs, hcs, hd⟩ : ∃ d cs, Integer.text n = d :: cs ∧ (d = '-' ∨ d.isDigit = true) := by
    have hdigits := isDigits_digits n.natAbs
    rw [hds] at hdigits
    rw [Integer.text, hds]
    split
    · exact ⟨_, _, rfl, .inl rfl⟩
    · exact ⟨_, _, rfl, .inr (isDigits_cons.1 hdigits).1⟩
  rw [hcs] at hlast hfloat hint ⊢
  rw [plainTag_number hrules hd hlast (by rw [hint, Bool.or_true]), hfloat]
  rfl

/-! ### Floats -/

/-- What stands behind the point: digits, and perhaps an exponent. -/
theorem isFraction_pointed (p : Double.Pointed) : isFraction (p.fraction ++ p.ending) = true := by
  rw [isFraction, List.dropWhile_append_of_pos (isDigitOrGap_of_isDigits p.fraction_isDigits),
    Double.Pointed.ending]
  rcases hexp : p.exponent? with _ | ⟨isNegative, ds⟩
  · rfl
  · have hds := p.exponent_isDigits _ hexp
    obtain ⟨d, ds, rfl⟩ := List.exists_cons_of_ne_nil (p.exponent_ne_nil _ hexp)
    dsimp only
    rw [List.dropWhile_cons_of_neg (by decide)]
    rw [isDigits] at hds
    cases isNegative <;> simpa [isExponent] using hds

theorem isFloat_pointed (negative : Bool) (p : Double.Pointed) :
    isFloat (Decimal.signText negative ++ p.text) = true := by
  obtain ⟨c, w, hw⟩ := List.exists_cons_of_ne_nil p.whole_ne_nil
  have hwhole := p.whole_isDigits
  obtain ⟨hc, hothers⟩ : c.isDigit = true ∧ isDigits w = true := by
    rw [hw] at hwhole
    exact isDigits_cons.1 hwhole
  have hpass : ∀ d ∈ p.whole, (d != '.') = true := by
    intro d hd
    rw [bne_iff_ne]
    exact ne_of_isDigits hwhole rfl d hd
  have hunsigned : unsigned (Decimal.signText negative ++ p.text) = p.text := by
    have htext : p.text = c :: (w ++ '.' :: (p.fraction ++ p.ending)) := by
      rw [Double.Pointed.text, hw]
      rfl
    rw [htext, unsigned_signText negative hc]
  have htake : p.text.takeWhile (· != '.') = p.whole := by
    rw [Double.Pointed.text, List.takeWhile_append_of_pos hpass]
    simp
  have hdrop : p.text.dropWhile (· != '.') = '.' :: (p.fraction ++ p.ending) := by
    rw [Double.Pointed.text, List.dropWhile_append_of_pos hpass]
    simp
  have hgrouped : isGrouped p.whole = true := by
    rw [hw]
    simp only [isGrouped, hc, Bool.true_and, List.all_eq_true]
    exact isDigitOrGap_of_isDigits hothers
  unfold isFloat
  dsimp only
  rw [hunsigned, htake, hdrop]
  dsimp only
  rw [hgrouped, isFraction_pointed, Bool.true_and, Bool.true_or, Bool.true_or, Bool.true_or]

theorem plainTag_pointed (hrules : IsSchema rules) (negative : Bool) (p : Double.Pointed) :
    plainTag rules (Decimal.signText negative ++ p.text) = .float := by
  have hfloat := isFloat_pointed negative p
  have hlast : (Decimal.signText negative ++ p.text).getLast? ≠ some '\n' :=
    getLast?_signText negative fun hmem => absurd (p.text_isNumeral _ hmem) (by decide)
  obtain ⟨d, cs, hcs, hd⟩ : ∃ d cs, Decimal.signText negative ++ p.text = d :: cs ∧
      (d = '-' ∨ d.isDigit = true) := by
    obtain ⟨c, cs, hcs, hc⟩ := p.exists_text_eq_cons
    rw [hcs]
    cases negative with
    | true => exact ⟨_, _, rfl, .inl rfl⟩
    | false => exact ⟨_, _, rfl, .inr hc⟩
  rw [hcs] at hfloat hlast ⊢
  rw [plainTag_number hrules hd hlast (by rw [hfloat, Bool.true_or]), hfloat]
  rfl

/-- The text of a float with a point is tagged as one. -/
theorem plainTag_float (hrules : IsSchema rules) {x : Double} (hfinite : x.isFinite = true)
    (hpoint : '.' ∈ x.text) : plainTag rules x.text = .float := by
  obtain ⟨negative, -, -, p, -, htext, -⟩ := Double.exists_pointed_of_isFinite hfinite hpoint
  rw [htext]
  exact plainTag_pointed hrules negative p

/-! ## Values of scalars -/

namespace Scalar

theorem signed_signText (negative : Bool) (hc : c.isDigit = true) (h : '_' ∉ c :: cs) :
    signed (Decimal.signText negative ++ c :: cs) = .ok (negative, c :: cs) := by
  have hfilter : (c :: cs).filter (· != '_') = c :: cs := by
    rw [List.filter_eq_self]
    intro d hd
    rw [bne_iff_ne]
    rintro rfl
    exact h hd
  unfold signed
  rw [List.filter_append, hfilter]
  cases negative with
  | true => rfl
  | false =>
    rw [show (Decimal.signText false).filter (· != '_') = [] from rfl, List.nil_append]
    split
    · next heq => cases heq
    · next heq => exact absurd (List.cons.inj heq).1 (ne_of_isDigit hc rfl)
    · next heq => exact absurd (List.cons.inj heq).1 (ne_of_isDigit hc rfl)
    · rfl

theorem splitAt_of_not_mem (h : c ∉ cs) : splitAt c cs = [cs] := by
  induction cs with
  | nil => rfl
  | cons d cs ih =>
    obtain ⟨hd, hcs⟩ : c ≠ d ∧ c ∉ cs := by simpa using h
    rw [splitAt, if_neg (by simpa using Ne.symm hd), ih hcs]

theorem magnitude_digits {n : Nat} (h : n < limitBound) : magnitude (digits n) = .ok (n : Int) := by
  by_cases hn : n = 0
  · subst hn
    rfl
  have hhead := head?_digits (Nat.pos_of_ne_zero hn)
  have hcolon : ':' ∉ digits n := by
    intro hmem
    have hdigits := isDigits_digits n
    rw [isDigits, List.all_eq_true] at hdigits
    exact absurd (hdigits _ hmem) (by decide)
  unfold magnitude
  split
  · next heq => exact absurd heq (digits_ne_nil n)
  · next heq => exact absurd (congrArg List.head? heq) hhead
  · next heq => exact absurd (congrArg List.head? heq) hhead
  · next heq => exact absurd (congrArg List.head? heq) hhead
  · next heq => exact absurd (congrArg List.head? heq) hhead
  · rw [splitAt_of_not_mem hcolon]
    simp [read?_digits h, number]

/-- **Integers within the limit are read back.** -/
theorem int_text {n : Int} (h : isWritable n = true) : int (Integer.text n) = .ok n := by
  obtain ⟨c, ds, hds⟩ := List.exists_cons_of_ne_nil (digits_ne_nil n.natAbs)
  have hdigits := isDigits_digits n.natAbs
  have hc : c.isDigit = true := by
    rw [hds] at hdigits
    exact (isDigits_cons.1 hdigits).1
  have hsigned := signed_signText (decide (n < 0)) hc (hds ▸ underscore_not_mem hdigits)
  rw [isWritable, decide_eq_true_eq] at h
  unfold int
  rw [text_eq_signText, hds, hsigned, ← hds]
  simp only [bind, Except.bind, magnitude_digits h, pure, Except.pure, decide_eq_true_eq]
  congr 1
  split <;> omega

/-- **Floats with a point are read back.** -/
theorem float_pointed {x : Double} (hfinite : x.isFinite = true) (hpoint : '.' ∈ x.text) :
    float x.text = .ok x := by
  obtain ⟨negative, rank, h, p, rfl, htext, hvalue⟩ := Double.exists_pointed_of_isFinite hfinite hpoint
  obtain ⟨c, cs, hcs, hc⟩ := p.exists_text_eq_cons
  have hnone : ∀ d, Double.Pointed.isNumeral d = false → d ∉ p.text := by
    intro d hd hmem
    rw [p.text_isNumeral d hmem] at hd
    cases hd
  have hsigned := signed_signText negative hc (hcs ▸ hnone '_' rfl)
  have hlower : lowercase p.text = p.text := by
    refine (List.map_congr_left fun d hd => ?_).trans (List.map_id _)
    exact Double.Pointed.of_isNumeral (fun d hd => toLower_of_isDigit hd) (by decide)
      (p.text_isNumeral d hd)
  have hcolon : p.text.contains ':' = false := by
    rw [Bool.eq_false_iff, ne_eq, List.contains_iff_mem]
    exact hnone ':' rfl
  have hword : ∀ w : List Char, w.head? = some '.' → (p.text == w) = false := by
    intro w hw
    rw [beq_eq_false_iff_ne]
    rintro rfl
    rw [hcs] at hw
    cases hw
    cases hc
  have hmagnitude : floatMagnitude p.text = .ok (.finite false rank h) := by
    unfold floatMagnitude
    rw [hword _ rfl, hword _ rfl, hcolon, p.read?_text, hvalue]
    rfl
  unfold float
  rw [htext, hcs, hsigned, ← hcs]
  simp only [bind, Except.bind, hlower, hmagnitude, pure, Except.pure]
  cases negative <;> rfl

end Scalar

/-! ## Values of nodes -/

/-- A value that a document gives back: all integers are within the limit and all floats have a
point, and the keys of its documents are distinct texts. -/
inductive Restorable : Value → Prop
  | null : Restorable .null
  | bool (b : Bool) : Restorable (.bool b)
  | int {n : Int} (h : isWritable n = true) : Restorable (.int n)
  | float {x : Double} (hfinite : x.isFinite = true) (hpoint : '.' ∈ x.text) : Restorable (.float x)
  | text (s : String) : Restorable (.text s)
  | list {items : List Value} (h : ∀ v ∈ items, Restorable v) : Restorable (.list items)
  | document {entries : Document} (hkeys : ∀ e ∈ entries, ∃ s, e.1 = .text s)
      (hdistinct : Document.Distinct entries) (hvalues : ∀ e ∈ entries, Restorable e.2) :
      Restorable (.document entries)

namespace Node

/-- A value has a node that stands for it and is no part of itself. -/
def StandsFor (v : Value) : Prop :=
  ∃ n, ofValue? v = some n ∧ n.holdsItself = false ∧ ∀ depth, valueAt depth n = .ok v

theorem every_ok (xs : List α) : every (xs.map Except.ok) = .ok xs := by
  induction xs with
  | nil => rfl
  | cons x xs ih =>
    rw [List.map_cons, every, ih]
    rfl

theorem floatText_of_point {x : Double} (hfinite : x.isFinite = true) (hpoint : '.' ∈ x.text) :
    floatText x = x.text := by
  cases x with
  | infinity => cases hfinite
  | nan => cases hfinite
  | finite => exact if_pos (List.contains_iff_mem.2 hpoint)

theorem standsFor_items {items : List Value} (h : ∀ v ∈ items, StandsFor v) :
    ∃ ns, ofItems? items = some ns ∧ anyHoldsItself ns = false ∧
      ∀ depth, itemsAt depth ns = items.map .ok := by
  induction items with
  | nil => exact ⟨[], rfl, rfl, fun _ => rfl⟩
  | cons v vs ih =>
    obtain ⟨hv, hvs⟩ := List.forall_mem_cons.1 h
    obtain ⟨n, hn, htree, hvalue⟩ := hv
    obtain ⟨ns, hns, htrees, hvalues⟩ := ih hvs
    refine ⟨n :: ns, ?_, ?_, ?_⟩
    · rw [ofItems?, hn, hns]
    · rw [anyHoldsItself, htree, htrees]
      rfl
    · intro depth
      rw [itemsAt, hvalue, hvalues, List.map_cons]

theorem standsFor_entries {entries : Document} (hkeys : ∀ e ∈ entries, ∃ s, e.1 = .text s)
    (h : ∀ e ∈ entries, StandsFor e.2) :
    ∃ ns, ofEntries? entries = some ns ∧ anyEntryHoldsItself ns = false ∧
      ∀ depth, entriesAt depth ns = .ok ([], entries.map .ok) := by
  induction entries with
  | nil => exact ⟨[], rfl, rfl, fun _ => rfl⟩
  | cons e es ih =>
    obtain ⟨k, v⟩ := e
    obtain ⟨⟨s, hk⟩, hkeys⟩ := List.forall_mem_cons.1 hkeys
    obtain ⟨hv, hvs⟩ := List.forall_mem_cons.1 h
    obtain ⟨n, hn, htree, hvalue⟩ := hv
    obtain ⟨ns, hns, htrees, hvalues⟩ := ih hkeys hvs
    dsimp only at hk hn hvalue
    subst hk
    have htext : ofValue? (.text s) = some (.scalar .text s.toList) := rfl
    refine ⟨(.scalar .text s.toList, n) :: ns, ?_, ?_, ?_⟩
    · rw [ofEntries?, htext, hn, hns]
    · rw [anyEntryHoldsItself, htree, htrees]
      rfl
    · intro depth
      have hkey : valueAt depth (.scalar .text s.toList) = .ok (.text s) := by
        show Except.ok (Value.text (String.ofList s.toList)) = _
        rw [String.ofList_toList]
      have hasKey : asKey depth (.ok (.text s)) = .ok (.text s) := by
        unfold asKey
        dsimp only
        rw [if_pos (Value.isKey_text s)]
      rw [entriesAt, if_neg (by simp [Node.tag]), hvalues, hvalue]
      dsimp only [valueKeyText?]
      rw [hkey, hasKey]
      rfl

/-- **A restorable value is what its node stands for.** -/
theorem standsFor_of_restorable {v : Value} (h : Restorable v) : StandsFor v := by
  induction h with
  | null => exact ⟨_, rfl, rfl, fun _ => rfl⟩
  | bool b =>
    refine ⟨_, rfl, rfl, fun depth => ?_⟩
    cases b <;> rfl
  | @int n h =>
    refine ⟨.scalar .int (Integer.text n), ?_, rfl, ?_⟩
    · rw [ofValue?, Integer.text?, if_pos h]
      rfl
    · intro depth
      show at_ depth ((Scalar.int (Integer.text n)).map Value.int) = _
      rw [Scalar.int_text h]
      rfl
  | @float x hfinite hpoint =>
    refine ⟨.scalar .float x.text, ?_, rfl, ?_⟩
    · rw [ofValue?, floatText_of_point hfinite hpoint]
    · intro depth
      show at_ depth ((Scalar.float x.text).map Value.float) = _
      rw [Scalar.float_pointed hfinite hpoint]
      rfl
  | text s =>
    refine ⟨.scalar .text s.toList, rfl, rfl, fun depth => ?_⟩
    show Except.ok (Value.text (String.ofList s.toList)) = _
    rw [String.ofList_toList]
  | list _ ih =>
    obtain ⟨ns, hns, htrees, hvalues⟩ := standsFor_items ih
    refine ⟨.sequence .sequence ns, ?_, htrees, ?_⟩
    · rw [ofValue?, hns]
      rfl
    · intro depth
      show (every (itemsAt (depth + 1) ns)).map Value.list = _
      rw [hvalues, every_ok]
      rfl
  | document hkeys hdistinct _ ih =>
    obtain ⟨ns, hns, htrees, hvalues⟩ := standsFor_entries hkeys ih
    refine ⟨.mapping .mapping ns, ?_, htrees, ?_⟩
    · rw [ofValue?, hns]
      rfl
    · intro depth
      rw [valueAt, hvalues]
      show (asDocument ([], _)).map Value.document = _
      rw [asDocument, List.nil_append, every_ok]
      show Except.ok (Value.document (Document.ofEntries _)) = _
      rw [hdistinct.ofEntries_eq]

end Node

/-- A restorable value has no sets whose items could come in another order. -/
theorem ordered_of_restorable {v : Value} (h : Restorable v) (order : List Value → List Value) :
    v.ordered order = v := by
  induction h with
  | null | bool | int | float | text => rfl
  | list _ ih => rw [Value.ordered, Value.orderedItems_eq_map, List.map_congr_left ih, List.map_id']
  | document _ _ _ ih =>
    have hentries : ∀ e ∈ _, (e.1, Value.ordered order e.2) = e := fun e he => Prod.ext rfl (ih e he)
    rw [Value.ordered, Value.orderedEntries_eq_map, List.map_congr_left hentries, List.map_id']

end Stencil.Yaml
