import Mathlib.Data.Bool.AllAny
import Stencil.Proofs.Yaml.Escape
import Stencil.Proofs.Yaml.Pen
import Stencil.Proofs.Yaml.Spelling

/-!
# Double-quoted scalars are read back

Between double quotes a character is written as itself or as an escape, and the line may be broken
behind a backslash (`Escapes`). A space that comes next on the new line needs a backslash of its own,
as spaces at the begin of a line stand for nothing.

The pen writes only such texts (`Pen.writes_doubleRest`), except in one case. Behind an escape that
ends past the width it breaks the line and marks a space that comes next, and if the indentation is
past the width as well it breaks the line again, behind the mark (`blankAfterEscape`).
-/

namespace Stencil.Yaml

open Text

variable {c l : Char} {cs ds rest reversed : List Char} {indent : Nat} {folded : Bool} {gap : Gap}

/-! ## Escaped texts -/

/-- A character as it is written in double quotes. -/
def escapedChar (c : Char) : List Char := if Pen.isDoublePlain c then [c] else Pen.escape c

/-- A text as it may be written in double quotes, perhaps at the begin of a line. -/
inductive Escapes (indent : Nat) : Bool → List Char → List Char → Prop
  | nil (folded : Bool) : Escapes indent folded [] []
  | raw {folded : Bool} {c : Char} {cs ds : List Char} (hc : Pen.isDoublePlain c = true)
      (hfold : folded = true → c ≠ ' ') (h : Escapes indent false cs ds) :
      Escapes indent folded (c :: cs) (c :: ds)
  | escape {folded : Bool} {c : Char} {cs ds : List Char} (hc : Pen.isDoublePlain c = false)
      (h : Escapes indent false cs ds) : Escapes indent folded (c :: cs) (Pen.escape c ++ ds)
  | blank {cs ds : List Char} (h : Escapes indent false cs ds) :
      Escapes indent true (' ' :: cs) ('\\' :: ' ' :: ds)
  | fold {folded : Bool} {cs ds : List Char} (h : Escapes indent true cs ds) :
      Escapes indent folded cs ('\\' :: freshLine indent ds)

/-! ## Characters -/

theorem toNat_of_isDoublePlain (h : Pen.isDoublePlain c = true) :
    c ≠ '\x22' ∧ c ≠ '\\' ∧ c.toNat ≠ 0xfeff ∧ c.toNat ≠ 0x2028 ∧ c.toNat ≠ 0x2029 ∧
      ((0x20 ≤ c.toNat ∧ c.toNat ≤ 0x7e) ∨ (0xa0 ≤ c.toNat ∧ c.toNat ≤ 0xd7ff) ∨
        (0xe000 ≤ c.toNat ∧ c.toNat ≤ 0xfffd)) := by
  simpa [Pen.isDoublePlain, and_assoc, or_assoc] using h

theorem isInline_of_isDoublePlain (h : Pen.isDoublePlain c = true) : Cursor.isInline c = true := by
  obtain ⟨-, -, hmark, hline, hparagraph, hrange⟩ := toNat_of_isDoublePlain h
  have hne : ∀ d : Char, c.toNat ≠ d.toNat → c ≠ d := by
    rintro d hd rfl
    exact hd rfl
  have hbreak : isBreak c = false := by
    simp only [isBreak, Bool.or_eq_false_iff, beq_eq_false_iff_ne]
    refine ⟨⟨⟨hne _ ?_, hne _ ?_⟩, hne _ hline⟩, hne _ hparagraph⟩
    · show c.toNat ≠ 0xa
      omega
    · show c.toNat ≠ 0x85
      omega
  have hmark' : c ≠ Cursor.byteOrderMark := hne _ hmark
  simp [Cursor.isInline, hbreak, hmark']

theorem isRaw_of_isDoublePlain (h : Pen.isDoublePlain c = true) (hspace : c ≠ ' ') :
    Quoted.isRaw c = true := by
  obtain ⟨hquote, hslash, -⟩ := toNat_of_isDoublePlain h
  have hinline := isInline_of_isDoublePlain h
  have htab : c ≠ '\t' := by
    rintro rfl
    cases h
  rw [Cursor.isInline, Bool.and_eq_true, Bool.not_eq_true'] at hinline
  simp [Quoted.isRaw, isGap, hspace, htab, hinline.1, hquote, hslash]

theorem isKept_of_isDoublePlain (h : Pen.isDoublePlain c = true) : isKept c = true := by
  obtain ⟨-, -, -, -, -, hrange⟩ := toNat_of_isDoublePlain h
  have hreturn : c ≠ '\r' := by
    rintro rfl
    cases h
  rcases hrange with hrange | hrange | hrange
  · exact isKept_of_ascii hrange
  · simp [isKept, isReadable, hreturn, hrange]
  · simp [isKept, isReadable, hreturn, hrange]

/-! ## Escapes -/

/-- The letters of short escapes stand for what they are made of. -/
theorem escaped?_of_escapeLetter? (h : Pen.escapeLetter? c = some l) :
    Quoted.escaped? l = some c ∧ 0x20 ≤ l.toNat ∧ l.toNat ≤ 0x7e := by
  have hc : Char.ofNat c.toNat = c := Char.ofNat_toNat c
  unfold Pen.escapeLetter? at h
  split at h
  all_goals cases h
  all_goals
    next heq =>
      rw [← hc, heq]
      decide

theorem capitalHexDigits_ascii (width n : Nat) :
    ∀ d ∈ capitalHexDigits width n, 0x20 ≤ d.toNat ∧ d.toNat ≤ 0x7e := by
  have hdigit : ∀ d < 16, 0x20 ≤ (hexDigit d).toUpper.toNat ∧ (hexDigit d).toUpper.toNat ≤ 0x7e := by
    decide
  intro d hd
  obtain ⟨e, he, rfl⟩ := List.mem_map.1 hd
  exact forall_hexDigits (p := fun e => 0x20 ≤ e.toUpper.toNat ∧ e.toUpper.toNat ≤ 0x7e) hdigit
    width n e he

/-- An escape is by a letter, or by the digits of the number of the character. -/
theorem escape_cases (c : Char) :
    (∃ l, Pen.escape c = ['\\', l] ∧ Quoted.escaped? l = some c ∧ 0x20 ≤ l.toNat ∧ l.toNat ≤ 0x7e) ∨
      ∃ l width, Pen.escape c = '\\' :: l :: capitalHexDigits (width + 1) c.toNat ∧ l ∈ ['x', 'u', 'U'] ∧
        Quoted.escaped? l = none ∧ Quoted.codeDigits? l = some (width + 1) ∧
        c.toNat < 16 ^ (width + 1) := by
  unfold Pen.escape
  dsimp only
  split
  · next l hl => exact .inl ⟨l, rfl, escaped?_of_escapeLetter? hl⟩
  · right
    split
    · next hbyte =>
      exact ⟨'x', 1, rfl, by decide, rfl, rfl, Nat.lt_succ_of_le hbyte⟩
    · split
      · next hunit => exact ⟨'u', 3, rfl, by decide, rfl, rfl, Nat.lt_succ_of_le hunit⟩
      · refine ⟨'U', 7, rfl, by decide, rfl, rfl, ?_⟩
        have hvalid : c.toNat.isValidChar := c.valid
        rcases hvalid with h | ⟨-, h⟩ <;> omega

theorem escape_ascii (c : Char) : ∀ d ∈ Pen.escape c, 0x20 ≤ d.toNat ∧ d.toNat ≤ 0x7e := by
  rcases escape_cases c with ⟨l, heq, -, hl⟩ | ⟨l, width, heq, hl, -⟩
  · rw [heq]
    exact List.forall_mem_cons.2 ⟨by decide, List.forall_mem_singleton.2 hl⟩
  · rw [heq]
    have hletters : ∀ l ∈ ['x', 'u', 'U'], 0x20 ≤ l.toNat ∧ l.toNat ≤ 0x7e :=
      List.all_iff_forall_prop.1 (by decide)
    exact List.forall_mem_cons.2 ⟨by decide, List.forall_mem_cons.2 ⟨hletters l hl,
      capitalHexDigits_ascii _ _⟩⟩

theorem Escapes.isKept (h : Escapes indent folded cs ds) : ∀ c ∈ ds, isKept c = true := by
  induction h with
  | nil => exact List.forall_mem_nil _
  | raw hc _ _ ih => exact List.forall_mem_cons.2 ⟨isKept_of_isDoublePlain hc, ih⟩
  | escape _ _ ih =>
    exact List.forall_mem_append.2 ⟨fun d hd => isKept_of_ascii (escape_ascii _ d hd), ih⟩
  | blank _ ih => exact List.forall_mem_cons.2 ⟨rfl, List.forall_mem_cons.2 ⟨rfl, ih⟩⟩
  | fold _ ih => exact List.forall_mem_cons.2 ⟨rfl, isKept_freshLine indent ih⟩

/-- Without folds the characters stand on one line. -/
theorem isInline_escapedChar (c : Char) : ∀ d ∈ escapedChar c, Cursor.isInline d = true := by
  unfold escapedChar
  split
  · next hplain => exact List.forall_mem_singleton.2 (isInline_of_isDoublePlain hplain)
  · exact fun d hd => Cursor.isInline_of_ascii (escape_ascii c d hd)

/-! ## Reading -/

namespace Quoted

theorem scanFrom_escape :
    scanFrom true reversed (.text gap) (Pen.escape c ++ rest) =
      scanFrom true (c :: (gap.text.reverse ++ reversed)) (.text .nothing) rest := by
  rcases escape_cases c with ⟨l, heq, hl, -⟩ | ⟨l, width, heq, -, hnone, hdigits, hc⟩
  · rw [heq]
    exact scanFrom_letter hl
  · rw [heq]
    exact scanFrom_code hexCase_capital hnone hdigits hc

/-- A line break behind a backslash stands for nothing. -/
theorem scanFrom_escapedBreak (hindent : 0 < indent) :
    scanFrom true reversed (.text gap) ('\\' :: freshLine indent rest) =
      scanFrom true (gap.text.reverse ++ reversed) (.text (.lines none [])) rest := by
  have hmarker : beginsWithMarker (List.replicate indent ' ' ++ rest) = false :=
    beginsWithMarker_indented (.inl hindent)
  have hstep : step true .escape '\n' (List.replicate indent ' ' ++ rest) =
      .ok ([], some (.text (.lines none []))) := by
    simp [step, escaped?, codeDigits?, isBreak, hmarker]
  rw [freshLine, scanFrom_backslash, scanFrom, hstep]
  exact scanFrom_indentation

/-- **An escaped text is read as what it was made of.** -/
theorem scanFrom_escapes (h : Escapes indent folded cs ds) (hindent : 0 < indent)
    (hgap : folded = false → gap.isCrossing = false) :
    scanFrom true reversed (.text gap) (ds ++ '\x22' :: rest) =
      .ok (reversed.reverse ++ gap.text ++ cs, rest) := by
  induction h generalizing reversed gap with
  | nil folded => rw [List.nil_append, scanFrom_close, List.append_nil]
  | @raw folded c cs ds hc hfold h ih =>
    rw [List.cons_append]
    by_cases hspace : c = ' '
    · subst hspace
      have hfresh : folded = false := Bool.eq_false_iff.2 fun hfolded => hfold hfolded rfl
      obtain ⟨htext, hcrossing⟩ := Gap.text_addBlank (hgap hfresh) ' '
      rw [scanFrom_gap rfl, ih fun _ => hcrossing, htext]
      simp
    · rw [scanFrom_raw (isRaw_of_isDoublePlain hc hspace), ih fun _ => rfl]
      simp [Gap.text]
  | @escape folded c cs ds hc h ih =>
    rw [List.append_assoc, scanFrom_escape, ih fun _ => rfl]
    simp [Gap.text]
  | @blank cs ds h ih =>
    rw [List.cons_append, List.cons_append, scanFrom_letter rfl, ih fun _ => rfl]
    simp [Gap.text]
  | @fold folded cs ds h ih =>
    have hline : '\\' :: freshLine indent ds ++ '\x22' :: rest =
        '\\' :: freshLine indent (ds ++ '\x22' :: rest) := by simp [freshLine]
    rw [hline, scanFrom_escapedBreak hindent, ih fun hfresh => absurd hfresh (by decide)]
    simp [Gap.text]

end Quoted

/-! ## Writing -/

/-- Behind an escape that is not the last but one character a space comes. -/
def blankAfterEscape : List Char → Bool
  | [] => false
  | c :: cs =>
    (!Pen.isDoublePlain c && cs.head? == some ' ' && 1 < cs.length) || blankAfterEscape cs

namespace Pen

variable {p q : Pen} {mayFold : Bool} {pending mark : List Char}

theorem Ended.put (h : p.Ended) (w : List Char) : (p.put w).Ended := ⟨h.afterBlank_eq, h.atIndent_eq⟩

/-- The backslash before a space at the begin of a line. -/
def markOf (next : Option Char) : List Char := if next == some ' ' then ['\\'] else []

theorem writes_foldDouble (h : p.Ended) (indent : Nat) (next : Option Char) :
    p.Writes ('\\' :: freshLine indent (markOf next)) (p.foldDouble indent next) ∧
      (p.foldDouble indent next).Ended ∧
      (p.foldDouble indent next).column = indent + (markOf next).length := by
  have hneeds : (p.put ['\\']).needsLine indent = true := needsLine_of_ended (h.put _) indent
  have hline : p.Writes ('\\' :: freshLine indent []) ((p.put ['\\']).fold indent) := by
    have hbreak := writes_indentTo hneeds
    rw [freshLine, List.append_nil]
    exact (writes_put p ['\\']).trans ⟨hbreak.reversed_eq, hbreak.isOpen_eq⟩
  have hcolumn : ((p.put ['\\']).fold indent).column = indent := by
    rw [fold, indentTo_of_needsLine hneeds]
  unfold foldDouble markOf
  split
  · have hwrites := hline.trans (writes_put _ ['\\'])
    rw [List.cons_append, ← freshLine_eq_append] at hwrites
    exact ⟨hwrites, ⟨rfl, rfl⟩, congrArg (· + 1) hcolumn⟩
  · exact ⟨hline, ⟨rfl, rfl⟩, hcolumn⟩

/-- What may stand between the pen and the rest of a text: nothing, characters that wait, the begin
of a line, or the mark of a space there, behind which the line must not be broken again. -/
def Goes (p : Pen) (indent : Nat) (folded : Bool) (mark pending cs : List Char) : Prop :=
  (mark = [] ∧ (folded = true → pending = [] ∧ cs.head? ≠ some ' ')) ∨
    (mark = ['\\'] ∧ folded = true ∧ pending = [] ∧ cs.head? = some ' ' ∧ p.column = indent + 1 ∧
      (indent < width ∨ cs.length ≤ 1))

theorem goes_of_fresh (p : Pen) (indent : Nat) (pending cs : List Char) :
    p.Goes indent false [] pending cs := .inl ⟨rfl, nofun⟩

theorem Goes.mark_eq (h : p.Goes indent folded mark pending cs) :
    mark = if folded then markOf cs.head? else [] := by
  rcases h with ⟨rfl, hfolded⟩ | ⟨rfl, rfl, -, hhead, -⟩
  · cases folded with
    | false => rfl
    | true => simp [markOf, (hfolded rfl).2]
  · simp [markOf, hhead]

/-- Past the width with more to come there is no mark. -/
theorem Goes.mark_eq_nil (h : p.Goes indent folded mark pending (c :: cs)) (hne : cs ≠ [])
    (hwidth : width < p.column + pending.length) : mark = [] := by
  rcases h with ⟨hmark, -⟩ | ⟨-, -, rfl, -, hcolumn, hroom⟩
  · exact hmark
  · have hlength : 0 < cs.length := List.length_pos_iff.2 hne
    simp only [List.length_nil, List.length_cons] at hwidth hroom
    omega

theorem goes_foldDouble (h : p.Ended)
    (hroom : cs.head? = some ' ' → indent < width ∨ cs.length ≤ 1) :
    (p.foldDouble indent cs.head?).Goes indent true (markOf cs.head?) [] cs := by
  obtain ⟨-, -, hcolumn⟩ := writes_foldDouble h indent cs.head?
  unfold markOf at hcolumn ⊢
  split at hcolumn
  · next hspace =>
    rw [if_pos hspace]
    rw [beq_iff_eq] at hspace
    exact .inr ⟨rfl, rfl, rfl, hspace, hcolumn, hroom hspace⟩
  · next hspace =>
    rw [if_neg hspace]
    exact .inl ⟨rfl, fun _ => ⟨rfl, by simpa using hspace⟩⟩

/-- Behind a mark, and behind characters that wait, the rest of a text is written as it may be. Where
lines may not be broken, it is written character by character. -/
def WritesRest (p q : Pen) (indent : Nat) (mayFold folded : Bool) (mark pending cs : List Char) :
    Prop :=
  ∃ w, Escapes indent folded cs (mark ++ w) ∧
    (mayFold = false → mark = [] → w = cs.flatMap escapedChar) ∧ p.Writes (pending.reverse ++ w) q

theorem WritesRest.nil (p : Pen) (indent : Nat) (mayFold folded : Bool) (pending : List Char) :
    p.WritesRest (p.put pending.reverse) indent mayFold folded [] pending [] := by
  refine ⟨[], .nil folded, fun _ _ => rfl, ?_⟩
  rw [List.append_nil]
  exact writes_put p _

/-- The characters that wait are written. -/
theorem WritesRest.flush (h : (p.put pending.reverse).WritesRest q indent mayFold folded mark [] cs) :
    p.WritesRest q indent mayFold folded mark pending cs := by
  obtain ⟨w, hw, hsame, hrest⟩ := h
  exact ⟨w, hw, hsame, (writes_put p pending.reverse).trans hrest⟩

/-- A character that stands for itself waits. -/
theorem WritesRest.plain (hc : isDoublePlain c = true)
    (hmark : mark = if folded then markOf (some c) else [])
    (h : p.WritesRest q indent mayFold false [] (c :: pending) cs) :
    p.WritesRest q indent mayFold folded mark pending (c :: cs) := by
  obtain ⟨w, hw, hsame, hrest⟩ := h
  refine ⟨c :: w, ?_, ?_, ?_⟩
  · by_cases hspace : folded = true ∧ c = ' '
    · obtain ⟨rfl, rfl⟩ := hspace
      rw [hmark]
      exact .blank hw
    · obtain rfl : mark = [] := by
        rw [hmark]
        cases folded with
        | false => rfl
        | true => simpa [markOf] using hspace
      exact .raw hc (fun hfolded hblank => hspace ⟨hfolded, hblank⟩) hw
  · intro hfold _
    have hself : escapedChar c = [c] := if_pos hc
    rw [hsame hfold rfl, List.flatMap_cons, hself]
    rfl
  · simpa using hrest

theorem WritesRest.escape (hc : isDoublePlain c = false)
    (h : (p.put (Pen.escape c)).WritesRest q indent mayFold false [] [] cs) :
    p.WritesRest q indent mayFold folded [] [] (c :: cs) := by
  obtain ⟨w, hw, hsame, hrest⟩ := h
  refine ⟨Pen.escape c ++ w, .escape hc hw, ?_, (writes_put p (Pen.escape c)).trans hrest⟩
  intro hfold _
  have hself : escapedChar c = Pen.escape c := if_neg (by rw [hc]; decide)
  rw [hsame hfold rfl, List.flatMap_cons, hself]

/-- The line is broken, and a space that comes next is marked. -/
theorem WritesRest.fold (hp : p.Ended)
    (h : (p.foldDouble indent cs.head?).WritesRest q indent true true (markOf cs.head?) [] cs) :
    p.WritesRest q indent true folded [] [] cs := by
  obtain ⟨w, hw, -, hrest⟩ := h
  obtain ⟨hwrites, -⟩ := writes_foldDouble hp indent cs.head?
  refine ⟨'\\' :: freshLine indent (markOf cs.head? ++ w), .fold hw, nofun, ?_⟩
  have hall := hwrites.trans hrest
  simpa [freshLine] using hall

/-- **A text is written in double quotes** as it may be, unless a line is broken behind a mark. -/
theorem writes_doubleRest (indent : Nat) (mayFold isFirst : Bool) (hp : p.Ended)
    (hgoes : p.Goes indent folded mark pending cs)
    (hsafe : mayFold = true → indent < width ∨
      blankAfterEscape (if isFirst then cs.tail else cs) = false) :
    p.WritesRest (doubleRest p indent mayFold isFirst pending cs) indent mayFold folded mark pending
      cs := by
  induction cs generalizing p folded mark pending isFirst with
  | nil =>
    obtain rfl : mark = [] := hgoes.mark_eq.trans (ite_self _)
    exact .nil p indent mayFold folded pending
  | cons c cs ih =>
    have hsafe' : mayFold = true → indent < width ∨ blankAfterEscape cs = false := by
      intro hfold
      rcases hsafe hfold with hindent | hblank
      · exact .inl hindent
      · cases isFirst with
        | true => exact .inr hblank
        | false => exact .inr (Bool.or_eq_false_iff.1 hblank).2
    rw [doubleRest]
    dsimp only
    split
    · next hplain =>
      split
      · next hfold =>
        -- The line is broken before the character, which is then marked if it is a space.
        simp only [Bool.and_eq_true, Bool.not_eq_true', Bool.or_eq_true, beq_iff_eq,
          decide_eq_true_eq, List.isEmpty_eq_false_iff] at hfold
        obtain ⟨⟨⟨⟨rfl, -⟩, hne⟩, -⟩, hwidth⟩ := hfold
        obtain rfl : mark = [] := hgoes.mark_eq_nil hne hwidth
        obtain ⟨-, hended, -⟩ := writes_foldDouble (hp.put pending.reverse) indent (some c)
        have hrest := ih false hended (goes_of_fresh _ indent [c] cs) hsafe'
        exact .flush (.fold (hp.put _) (hrest.plain hplain rfl))
      · exact (ih false hp (goes_of_fresh p indent (c :: pending) cs) hsafe').plain hplain
          hgoes.mark_eq
    · next hescape =>
      rw [Bool.not_eq_true] at hescape
      obtain rfl : mark = [] := by
        rcases hgoes with ⟨hmark, -⟩ | ⟨-, -, -, hhead, -⟩
        · exact hmark
        · obtain rfl : c = ' ' := by simpa using hhead
          cases hescape
      have hended : ((p.put pending.reverse).put (Pen.escape c)).Ended := (hp.put _).put _
      split
      · next hfold =>
        -- The line is broken behind the escape.
        simp only [Bool.and_eq_true, Bool.not_eq_true'] at hfold
        obtain ⟨⟨⟨rfl, rfl⟩, -⟩, -⟩ := hfold
        have hroom : cs.head? = some ' ' → indent < width ∨ cs.length ≤ 1 := by
          intro hspace
          refine (hsafe rfl).imp id fun hblank => ?_
          have hfirst := (Bool.or_eq_false_iff.1 hblank).1
          rw [hescape, hspace] at hfirst
          simpa using hfirst
        obtain ⟨-, hended', -⟩ := writes_foldDouble hended indent cs.head?
        have hrest := ih false hended' (goes_foldDouble hended hroom) hsafe'
        exact .flush (.escape hescape (.fold hended hrest))
      · exact .flush (.escape hescape (ih false hended (goes_of_fresh _ indent [] cs) hsafe'))

theorem writes_double (cs : List Char) (p : Pen) (hindent : 0 < indent) (mayFold : Bool)
    (hsafe : mayFold = true → indent < width ∨ blankAfterEscape cs.tail = false) :
    ∃ w, Spells indent ('\x22' :: w) cs false ∧
      (mayFold = false → w = cs.flatMap escapedChar ++ ['\x22']) ∧
      p.Writes (p.lead ++ '\x22' :: w) (p.double indent mayFold cs) ∧
      (p.double indent mayFold cs).Ended := by
  let q := p.indicator ['\x22'] true false false
  have hq : q.Ended := ⟨rfl, Bool.and_false _⟩
  obtain ⟨w, hw, hsame, hwrites⟩ := writes_doubleRest indent mayFold true hq
    (goes_of_fresh q indent [] cs) hsafe
  rw [List.nil_append] at hw
  have hscan : ∀ rest, rest.head? ≠ some '\x27' →
      Quoted.scan true (w ++ ['\x22'] ++ rest) = .ok (cs, rest) := by
    intro rest _
    have hgap : false = false → Gap.nothing.isCrossing = false := fun _ => rfl
    rw [List.append_assoc, Quoted.scan, List.singleton_append,
      Quoted.scanFrom_escapes hw hindent hgap]
    rfl
  have hkept : ∀ c ∈ w ++ ['\x22'], isKept c = true :=
    List.forall_mem_append.2 ⟨hw.isKept, List.forall_mem_singleton.2 rfl⟩
  refine ⟨w ++ ['\x22'], spells_quoted true hkept hscan, ?_, ?_, ⟨rfl, Bool.and_false _⟩⟩
  · intro hfold
    rw [hsame hfold rfl]
  · have hopening := writes_indicator p ['\x22'] false false
    have hclosing := writes_mark (q.doubleRest indent mayFold true [] cs) ['\x22'] false false
    have hall : p.Writes (p.lead ++ ['\x22'] ++ ([].reverse ++ w ++ ['\x22']))
        (p.double indent mayFold cs) := hopening.trans (hwrites.trans hclosing)
    simpa using hall

end Pen
end Stencil.Yaml
