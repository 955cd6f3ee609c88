import Stencil.Proofs.Yaml.Scalar.Double
import Stencil.Proofs.Yaml.Scalar.Plain
import Stencil.Proofs.Yaml.Scalar.Single
import Stencil.Proofs.Yaml.Word
import Stencil.Yaml.Grammar
import Stencil.Yaml.Render

/-!
# Scalars in the style chosen for them

A scalar is *safe* where it is written if the style chosen for it can hold it there
(`isSafeText`): in single quotes no next-line character stands, in double quotes no line is broken
behind the mark of a space, and a key between them is not too long to be known by the colon behind
it. Safe scalars are written so that they are read back with their tags (`Node.exists_spelling`,
`Node.exists_keySpelling`).
-/

namespace Stencil.Yaml

variable {c : Char} {cs : List Char} {hasTag isKey : Bool} {t : Traits}

/-! ## Styles -/

namespace Style

theorem of_choose_plain (h : choose .text hasTag isKey t = .plain) :
    hasTag = true ∧ t.allowsPlain = true := by
  unfold choose at h
  rw [if_neg (by decide)] at h
  split at h
  · next hplain =>
    simp only [Bool.and_eq_true] at hplain
    exact hplain.1
  · split at h <;> cases h

theorem of_choose_single (h : choose .text hasTag isKey t = .single) : t.allowsSingle = true := by
  unfold choose at h
  rw [if_neg (by decide)] at h
  split at h
  · cases h
  · split at h
    · next hsingle =>
      rw [Bool.and_eq_true] at hsingle
      exact hsingle.1
    · cases h

theorem choose_ne_literal : choose .text hasTag isKey t ≠ .literal := by
  unfold choose
  rw [if_neg (by decide)]
  split
  · decide
  · split <;> decide

end Style

/-! ## Tags -/

theorem plainTag_eq_text {rules : List Rule} (h : ∀ r ∈ rules, r.tag ≠ .text) :
    plainTag rules cs = .text ↔ ∀ r ∈ rules, r.applies cs = false := by
  unfold plainTag
  rcases hfind : rules.find? fun r => r.applies cs with _ | r
  · rw [hfind]
    rw [List.find?_eq_none] at hfind
    exact iff_of_true rfl (by simpa using hfind)
  · have hr := h r (List.mem_of_find?_eq_some hfind)
    have happlies : r.applies cs = true :=
      List.find?_some (p := fun r : Rule => r.applies cs) hfind
    rw [hfind]
    constructor
    · intro htag
      exact absurd htag hr
    · intro hnone
      rw [hnone r (List.mem_of_find?_eq_some hfind)] at happlies
      cases happlies

theorem applies_broadBool (h : Rule.narrowBool.applies cs = true) :
    Rule.broadBool.applies cs = true := by
  have hwords : ∀ w ∈ Rule.trueFalse, w ∈ ["yes", "Yes", "YES", "no", "No", "NO"] ++ Rule.trueFalse ++
      ["on", "On", "ON", "off", "Off", "OFF"] := by
    intro w hw
    exact List.mem_append_left _ (List.mem_append_right _ hw)
  have hfirsts : ∀ d ∈ ['t', 'T', 'f', 'F'], Rule.broadBool.firsts.contains d = true :=
    List.all_eq_true.1 (by decide)
  unfold Rule.applies at h ⊢
  rw [Bool.and_eq_true] at h ⊢
  refine ⟨?_, ?_⟩
  · cases cs with
    | nil => exact h.1
    | cons c cs => exact hfirsts c (List.contains_iff_mem.1 h.1)
  · obtain ⟨w, hw, hsame⟩ := List.any_eq_true.1 h.2
    exact List.any_eq_true.2 ⟨w, hwords w hw, hsame⟩

/-- A text that no rule for writing takes is taken by none for reading. -/
theorem plainTag_readingRules_of_text (h : plainTag standardRules cs = .text) :
    plainTag readingRules cs = .text := by
  have hstandard : ∀ r ∈ standardRules, r.tag ≠ .text := List.all_iff_forall_prop.1 (by decide)
  have hreading : ∀ r ∈ readingRules, r.tag ≠ .text := List.all_iff_forall_prop.1 (by decide)
  rw [plainTag_eq_text hstandard] at h
  rw [plainTag_eq_text hreading]
  intro r hr
  rcases List.mem_append.1 hr with hr | hr
  · exact h r (List.mem_cons_of_mem _ hr)
  · rw [List.mem_singleton.1 hr, Bool.eq_false_iff]
    intro happlies
    exact absurd (applies_broadBool happlies)
      (Bool.eq_false_iff.1 (h Rule.broadBool List.mem_cons_self))

/-! ## Safe texts -/

/-- A text is read back where it is written at an indentation, or as a key. -/
def isSafeText (indent : Nat) (isKey : Bool) (cs : List Char) : Bool :=
  match Style.choose .text (isPlainTag .text cs) isKey (Traits.ofText cs) with
  | .single => !cs.contains '\x85'
  | .double =>
    if isKey then (cs.flatMap escapedChar).length + 2 ≤ Scan.keyLimit
    else indent < Pen.width || !blankAfterEscape cs.tail
  | _ => true

/-- A scalar is read back with its tag where it is written: it is a word, or a safe text. -/
def IsReadable (indent : Nat) (tag : Tag) (cs : List Char) : Prop :=
  (tag = .text ∧ isSafeText indent false cs = true) ∨
    (IsWord cs ∧ tag ≠ .binary ∧ isPlainTag tag cs = true ∧
      plainTag readingRules cs = tag)

/-! ## Scalars -/

namespace Node

variable {p : Pen} {place : Place} {indent? : Option Nat} {tag : Tag}

/-- Write a scalar in a style. -/
def writeStyled (style : Style) (p : Pen) (indent : Nat) (isRoot mayFold : Bool) (cs : List Char) :
    Pen :=
  match style with
  | .plain => p.plain indent isRoot mayFold cs
  | .single => p.single indent mayFold cs
  | .double => p.double indent mayFold cs
  | .literal => p.literal indent cs

/-- A scalar is written in the style chosen, without its tag if the style implies it. -/
theorem renderScalar_eq {style : Style}
    (hstyle : Style.choose tag (isPlainTag tag cs) (place == .key) (Traits.ofText cs) = style)
    (himplied : (if style == .plain then isPlainTag tag cs else tag == .text) = true) :
    renderScalar p place indent? tag cs =
      writeStyled style p (deeper 2 indent?) (place == .root) (!(place == .key)) cs := by
  subst hstyle
  unfold renderScalar
  dsimp only
  rw [himplied]
  rfl

/-- A way of writing a scalar from one state of the pen to another, and what is written is read as
the scalar. -/
structure Spelling (p : Pen) (indent : Nat) (cs w : List Char) (isPlain : Bool) (q : Pen) : Prop where
  spells : Spells indent w cs isPlain
  reversed_eq : q.reversed = (p.lead ++ w).reverse ++ p.reversed
  ended : q.Ended

theorem exists_plainSpelling (h : (Traits.ofText cs).allowsPlain = true) (hne : cs ≠ [])
    (p : Pen) {indent : Nat} (hindent : 0 < indent)
    (isRoot mayFold : Bool) :
    ∃ w, Spelling p indent cs w true (p.plain indent isRoot mayFold cs) ∧
      (mayFold = false → w = cs) ∧ (p.plain indent isRoot mayFold cs).isOpen = (isRoot || p.isOpen) := by
  obtain ⟨c, cs, rfl⟩ := List.exists_cons_of_ne_nil hne
  have hplain := isPlain_of_allowsPlain h
  let q : Pen := if isRoot then { p with isOpen := true } else p
  have hq : q.lead = p.lead ∧ q.reversed = p.reversed ∧ q.isOpen = (isRoot || p.isOpen) := by
    cases isRoot <;> exact ⟨rfl, rfl, rfl⟩
  have heq : p.plain indent isRoot mayFold (c :: cs) = q.plain indent false mayFold (c :: cs) := by
    cases isRoot <;> rfl
  obtain ⟨ds, hds, hsame, hwrites, hended, hopen⟩ := Pen.writes_plain hplain q indent mayFold
  rw [heq]
  refine ⟨c :: ds, ⟨hplain.spells hds hindent, ?_, hended⟩, ?_, hopen.trans hq.2.2⟩
  · rw [hwrites.reversed_eq, hq.1, hq.2.1]
  · exact fun hfold => by rw [hsame hfold]

theorem exists_singleSpelling (h : (Traits.ofText cs).allowsSingle = true)
    (hnext : cs.contains '\x85' = false) (p : Pen) {indent : Nat} (hindent : 0 < indent)
    (mayFold : Bool) (hopen : p.isOpen = false) :
    ∃ w, Spelling p indent cs ('\x27' :: w) false (p.single indent mayFold cs) ∧
      (mayFold = false → (∀ c ∈ cs, isBreak c = false) → w = cs.flatMap doubled ++ ['\x27']) ∧
      (p.single indent mayFold cs).isOpen = false := by
  have hnone : ∀ c ∈ cs, c ≠ '\x85' := by
    rintro c hc rfl
    rw [List.contains_iff_mem.2 hc] at hnext
    cases hnext
  obtain ⟨w, hw, hsame, hwrites, hended⟩ :=
    Pen.writes_single (isSingle_of_allowsSingle h) hnone p hindent mayFold
  exact ⟨w, ⟨hw, hwrites.reversed_eq, hended⟩, hsame, hwrites.isOpen_eq hopen⟩

theorem exists_doubleSpelling (cs : List Char) (p : Pen) {indent : Nat} (hindent : 0 < indent)
    (mayFold : Bool)
    (hsafe : mayFold = true → indent < Pen.width ∨ blankAfterEscape cs.tail = false)
    (hopen : p.isOpen = false) :
    ∃ w, Spelling p indent cs ('\x22' :: w) false (p.double indent mayFold cs) ∧
      (mayFold = false → w = cs.flatMap escapedChar ++ ['\x22']) ∧
      (p.double indent mayFold cs).isOpen = false := by
  obtain ⟨w, hw, hsame, hwrites, hended⟩ := Pen.writes_double cs p hindent mayFold hsafe
  exact ⟨w, ⟨hw, hwrites.reversed_eq, hended⟩, hsame, hwrites.isOpen_eq hopen⟩

theorem deeper_pos (indent? : Option Nat) : 0 < deeper 2 indent? := by
  cases indent? <;> exact Nat.succ_pos _

/-- A plain text is not empty, and it is read as a text. -/
theorem of_isPlainTag_text (h : isPlainTag .text cs = true) :
    cs ≠ [] ∧ plainTag readingRules cs = .text := by
  refine ⟨?_, plainTag_readingRules_of_text (by simpa [isPlainTag] using h)⟩
  rintro rfl
  exact absurd h (by decide)

/-- A scalar written plain at the root leaves an end marker due. -/
theorem exists_spelling_of_plain (hallows : (Traits.ofText cs).allowsPlain = true) (hne : cs ≠ [])
    (hwritten : renderScalar p place indent? tag cs =
      writeStyled .plain p (deeper 2 indent?) (place == .root) true cs) (hopen : p.isOpen = false) :
    ∃ w, Spelling p (deeper 2 indent?) cs w true (renderScalar p place indent? tag cs) ∧
      (renderScalar p place indent? tag cs).isOpen = (place == .root && true) := by
  rw [hwritten]
  obtain ⟨w, hw, -, hroot⟩ := exists_plainSpelling hallows hne p (deeper_pos indent?)
    (place == .root) true
  exact ⟨w, hw, hroot.trans (by rw [hopen, Bool.or_false, Bool.and_true])⟩

/-- **Readable scalars are spelled**, wherever they stand but as a key. -/
theorem exists_spelling (indent? : Option Nat) (h : IsReadable (deeper 2 indent?) tag cs)
    (hplace : place ≠ .key) :
    ∃ isPlain, Reading.scalarTag none isPlain cs = tag ∧ ∀ {p : Pen}, p.isOpen = false →
      ∃ w, Spelling p (deeper 2 indent?) cs w isPlain (renderScalar p place indent? tag cs) ∧
        (renderScalar p place indent? tag cs).isOpen = (place == .root && isPlain) := by
  have hindent := deeper_pos indent?
  have hkey : (place == .key) = false := beq_eq_false_iff_ne.2 hplace
  have hwritten {style : Style} (p : Pen)
      (hstyle : Style.choose tag (isPlainTag tag cs) false (Traits.ofText cs) = style)
      (himplied : (if style == .plain then isPlainTag tag cs else tag == .text) = true) :
      renderScalar p place indent? tag cs =
        writeStyled style p (deeper 2 indent?) (place == .root) true cs := by
    rw [← hkey] at hstyle
    rw [renderScalar_eq hstyle himplied, hkey]
    rfl
  rcases h with ⟨rfl, hsafe⟩ | ⟨hword, hbinary, hplainTag, hread⟩
  · unfold isSafeText at hsafe
    cases hstyle : Style.choose .text (isPlainTag .text cs) false (Traits.ofText cs) with
    | plain =>
      obtain ⟨hplainTag, hallows⟩ := Style.of_choose_plain hstyle
      obtain ⟨hne, hread⟩ := of_isPlainTag_text hplainTag
      exact ⟨true, hread, exists_spelling_of_plain hallows hne (hwritten _ hstyle hplainTag)⟩
    | single =>
      rw [hstyle] at hsafe
      refine ⟨false, rfl, fun {p} hopen => ?_⟩
      rw [hwritten p hstyle rfl]
      obtain ⟨w, hw, -, hclosed⟩ := exists_singleSpelling (Style.of_choose_single hstyle)
        (by simpa using hsafe) p hindent true hopen
      exact ⟨_, hw, hclosed.trans (Bool.and_false _).symm⟩
    | double =>
      rw [hstyle] at hsafe
      refine ⟨false, rfl, fun {p} hopen => ?_⟩
      rw [hwritten p hstyle rfl]
      obtain ⟨w, hw, -, hclosed⟩ := exists_doubleSpelling cs p hindent true
        (fun _ => by simpa using hsafe) hopen
      exact ⟨_, hw, hclosed.trans (Bool.and_false _).symm⟩
    | literal => exact absurd hstyle Style.choose_ne_literal
  · have hstyle : Style.choose tag (isPlainTag tag cs) false (Traits.ofText cs) = .plain := by
      unfold Style.choose
      rw [if_neg hbinary, hplainTag, hword.allowsPlain]
      rfl
    obtain ⟨c, ds, hcs⟩ := hword.exists_cons
    have hne : cs ≠ [] := hcs ▸ List.cons_ne_nil c ds
    exact ⟨true, hread,
      exists_spelling_of_plain hword.allowsPlain hne (hwritten _ hstyle hplainTag)⟩

/-! ### Keys -/

/-- A simple key stands on one line, with room for its quotes. -/
theorem of_isSimpleKey (h : (scalar .text cs).isSimpleKey = true) :
    (∀ c ∈ cs, isBreak c = false) ∧ cs.length < 123 := by
  simp only [isSimpleKey_scalar, Bool.and_eq_true, Bool.not_eq_true', List.any_eq_false,
    decide_eq_true_eq] at h
  have htag : Tag.text.shorthand.length = 5 := by decide
  rw [htag, simpleKeyLimit] at h
  exact ⟨fun c hc => by simpa using h.1.2 c hc, by omega⟩

/-- A way of writing a scalar as a key: on one line, and short enough to be known by the colon. -/
structure KeySpelling (p : Pen) (indent : Nat) (cs w : List Char) (isPlain : Bool) (q : Pen) : Prop
    extends Spelling p indent cs w isPlain q where
  isOpen_eq : q.isOpen = false
  isInline : ∀ c ∈ w, Cursor.isInline c = true
  length_le : w.length ≤ Scan.keyLimit

theorem keySpelling_plain (h : (Traits.ofText cs).allowsPlain = true) (hne : cs ≠ [])
    (hbreak : ∀ c ∈ cs, isBreak c = false) (hlength : cs.length < 123) {indent : Nat}
    (hindent : 0 < indent) (hopen : p.isOpen = false) :
    KeySpelling p indent cs cs true (p.plain indent false false cs) := by
  obtain ⟨w, hw, hsame, hclosed⟩ := exists_plainSpelling h hne p hindent false false
  obtain rfl := hsame rfl
  have hchars : ∀ c ∈ w, isPlainChar c = true := by
    obtain ⟨c, ds, rfl⟩ := List.exists_cons_of_ne_nil hne
    exact fun d hd => ((isPlain_of_allowsPlain h).chars d hd).1
  refine ⟨hw, hclosed.trans hopen, ?_, Nat.le_trans (Nat.le_of_lt hlength) (by decide)⟩
  exact fun c hc => isInline_of_isPlainChar (hchars c hc) (hbreak c hc)

/-- Between its quotes a text has at most twice its length. -/
theorem keySpelling_single (h : (Traits.ofText cs).allowsSingle = true)
    (hnext : cs.contains '\x85' = false) (hbreak : ∀ c ∈ cs, isBreak c = false)
    (hlength : cs.length < 123) {indent : Nat} (hindent : 0 < indent) (hopen : p.isOpen = false) :
    KeySpelling p indent cs ('\x27' :: (cs.flatMap doubled ++ ['\x27'])) false
      (p.single indent false cs) := by
  obtain ⟨w, hw, hsame, hclosed⟩ := exists_singleSpelling h hnext p hindent false hopen
  obtain rfl := hsame rfl hbreak
  have hinline : ∀ d ∈ cs.flatMap doubled, Cursor.isInline d = true := by
    intro d hd
    obtain ⟨c, hc, hd⟩ := List.mem_flatMap.1 hd
    rcases mem_doubled hd with rfl | rfl
    · exact isInline_of_isPlainChar ((isSingle_of_allowsSingle h).chars d hc) (hbreak d hc)
    · decide
  have hdoubled := length_flatMap_doubled_le cs
  refine ⟨hw, hclosed, ?_, ?_⟩
  · exact List.forall_mem_cons.2 ⟨by decide,
      List.forall_mem_append.2 ⟨hinline, List.forall_mem_singleton.2 (by decide)⟩⟩
  · simp only [List.length_cons, List.length_append, List.length_nil, Scan.keyLimit]
    omega

theorem keySpelling_double (hlength : (cs.flatMap escapedChar).length + 2 ≤ Scan.keyLimit)
    {indent : Nat} (hindent : 0 < indent) (hopen : p.isOpen = false) :
    KeySpelling p indent cs ('\x22' :: (cs.flatMap escapedChar ++ ['\x22'])) false
      (p.double indent false cs) := by
  obtain ⟨w, hw, hsame, hclosed⟩ := exists_doubleSpelling cs p hindent false (by simp) hopen
  obtain rfl := hsame rfl
  have hinline : ∀ d ∈ cs.flatMap escapedChar, Cursor.isInline d = true := by
    intro d hd
    obtain ⟨c, -, hd⟩ := List.mem_flatMap.1 hd
    exact isInline_escapedChar c d hd
  refine ⟨hw, hclosed, ?_, ?_⟩
  · exact List.forall_mem_cons.2 ⟨by decide,
      List.forall_mem_append.2 ⟨hinline, List.forall_mem_singleton.2 (by decide)⟩⟩
  · simp only [List.length_cons, List.length_append, List.length_nil]
    omega

/-- **Safe texts are spelled as keys.** -/
theorem exists_keySpelling (indent? : Option Nat) (h : isSafeText (deeper 2 indent?) true cs = true)
    (hkey : (scalar .text cs).isSimpleKey = true) :
    ∃ isPlain, Reading.scalarTag none isPlain cs = .text ∧ ∀ {p : Pen}, p.isOpen = false →
      ∃ w, KeySpelling p (deeper 2 indent?) cs w isPlain (renderScalar p .key indent? .text cs) := by
  have hindent := deeper_pos indent?
  obtain ⟨hbreak, hlength⟩ := of_isSimpleKey hkey
  have hwritten {style : Style} (p : Pen)
      (hstyle : Style.choose .text (isPlainTag .text cs) true (Traits.ofText cs) = style)
      (himplied : (if style == .plain then isPlainTag .text cs else true) = true) :
      renderScalar p .key indent? .text cs = writeStyled style p (deeper 2 indent?) false false cs :=
    renderScalar_eq hstyle himplied
  unfold isSafeText at h
  cases hstyle : Style.choose .text (isPlainTag .text cs) true (Traits.ofText cs) with
  | plain =>
    obtain ⟨hplainTag, hallows⟩ := Style.of_choose_plain hstyle
    obtain ⟨hne, hread⟩ := of_isPlainTag_text hplainTag
    refine ⟨true, hread, fun {p} hopen => ?_⟩
    rw [hwritten p hstyle hplainTag]
    exact ⟨_, keySpelling_plain hallows hne hbreak hlength hindent hopen⟩
  | single =>
    rw [hstyle] at h
    refine ⟨false, rfl, fun {p} hopen => ?_⟩
    rw [hwritten p hstyle rfl]
    exact ⟨_, keySpelling_single (Style.of_choose_single hstyle) (by simpa using h) hbreak hlength
      hindent hopen⟩
  | double =>
    rw [hstyle] at h
    refine ⟨false, rfl, fun {p} hopen => ?_⟩
    rw [hwritten p hstyle rfl]
    exact ⟨_, keySpelling_double (of_decide_eq_true h) hindent hopen⟩
  | literal => exact absurd hstyle Style.choose_ne_literal

end Node
end Stencil.Yaml
