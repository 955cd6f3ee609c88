import Stencil.Proofs.Yaml.Pen
import Stencil.Proofs.Yaml.Spelling

/-!
# Plain scalars are read back

A plain text is written as it is, except that its line may be broken at single spaces, each time
going on at the indentation (`Folds`). The pen writes only such texts (`Pen.writes_plain`), and they
are read as what they were made of (`Folds.scanFrom_eq`), since no character of a plain text ends a
plain scalar.
-/

namespace Stencil.Yaml

open Scan

variable {a c : Char} {cs ds next rest reversed : List Char} {indent margin column j : Nat} {gap : Gap}

/-! ## Folded texts -/

/-- A text behind a character, with its line broken at some single spaces. -/
inductive Folds (indent : Nat) : Char → List Char → List Char → Prop
  | nil (a : Char) : Folds indent a [] []
  | keep {a c : Char} {cs ds : List Char} (h : Folds indent c cs ds) :
      Folds indent a (c :: cs) (c :: ds)
  | fold {a c : Char} {cs ds : List Char} (ha : a ≠ ' ') (hc : c ≠ ' ') (h : Folds indent c cs ds) :
      Folds indent a (' ' :: c :: cs) (freshLine indent (c :: ds))

namespace Folds

/-- Behind a run of a text its last character counts. -/
theorem keep_append {run : List Char} (hne : run ≠ []) (h : Folds indent (run.getLast hne) cs ds) :
    Folds indent a (run ++ cs) (run ++ ds) := by
  induction run generalizing a with
  | nil => exact absurd rfl hne
  | cons c run ih =>
    cases run with
    | nil => exact .keep h
    | cons d run => exact .keep (ih (List.cons_ne_nil _ _) h)

/-- Where the text does not go on with a space its next character is written as it is. -/
theorem exists_cons (h : Folds indent a (c :: cs) ds) (hc : c ≠ ' ' ∨ a = ' ') :
    ∃ es, ds = c :: es ∧ Folds indent c cs es := by
  cases h with
  | keep h => exact ⟨_, rfl, h⟩
  | fold ha _ _ =>
    rcases hc with hc | hc
    · exact absurd rfl hc
    · exact absurd hc ha

theorem isKept (h : Folds indent a cs ds) (hcs : ∀ c ∈ cs, isKept c = true) :
    ∀ c ∈ ds, Yaml.isKept c = true := by
  induction h with
  | nil => exact List.forall_mem_nil _
  | keep _ ih =>
    obtain ⟨hc, hothers⟩ := List.forall_mem_cons.1 hcs
    exact List.forall_mem_cons.2 ⟨hc, ih hothers⟩
  | fold _ _ _ ih =>
    obtain ⟨-, hc, hothers⟩ := (List.forall_mem_cons.1 hcs).imp id List.forall_mem_cons.1
    exact isKept_freshLine indent (List.forall_mem_cons.2 ⟨hc, ih hothers⟩)

theorem endsHere_eq (h : Folds indent a cs ds) (hcs : endsHere cs = false) :
    endsHere (ds ++ rest) = false := by
  cases h with
  | nil => cases hcs
  | keep => exact hcs
  | fold => cases hcs

/-- The same mark several times in front of a folded text stands in front of the text. -/
theorem take_eq (h : Folds indent a cs ds) {k : Nat} {m : Char}
    (htake : (ds ++ rest).take k = List.replicate k m) (hm : m ≠ '\n') (hrest : rest.head? ≠ some m) :
    cs.take k = List.replicate k m := by
  induction h generalizing k with
  | nil a =>
    cases k with
    | zero => rfl
    | succ k =>
      cases rest with
      | nil => cases htake
      | cons d rest =>
        rw [List.nil_append, List.take_succ_cons, List.replicate_succ] at htake
        exact absurd (congrArg some (List.cons.inj htake).1) hrest
  | keep _ ih =>
    cases k with
    | zero => rfl
    | succ k =>
      rw [List.cons_append, List.take_succ_cons, List.replicate_succ] at htake
      obtain ⟨rfl, htake⟩ := List.cons.inj htake
      rw [List.take_succ_cons, List.replicate_succ, ih htake]
  | fold _ _ _ _ =>
    cases k with
    | zero => rfl
    | succ k =>
      rw [freshLine, List.cons_append, List.take_succ_cons, List.replicate_succ] at htake
      exact absurd (List.cons.inj htake).1.symm hm

theorem beginsLikeMarker_eq (h : Folds indent a cs ds) (hcs : beginsLikeMarker cs = false)
    (hdash : rest.head? ≠ some '-') (hdot : rest.head? ≠ some '.') :
    beginsLikeMarker (ds ++ rest) = false := by
  rw [beginsLikeMarker, Bool.or_eq_false_iff, beq_eq_false_iff_ne, beq_eq_false_iff_ne] at hcs ⊢
  exact ⟨fun htake => hcs.1 (h.take_eq (k := 3) htake (by decide) hdash),
    fun htake => hcs.2 (h.take_eq (k := 3) htake (by decide) hdot)⟩

end Folds

/-! ## Reading -/

namespace Unquoted

theorem scanFrom_char (hspace : c ≠ ' ') (hbreak : isBreak c = false)
    (hbehind : endsBehind false margin column gap c = false) (hends : endsAt false c rest = false) :
    scanFrom false margin reversed gap column (c :: rest) =
      scanFrom false margin (c :: (gap.text.reverse ++ reversed)) .nothing column rest := by
  rw [scanFrom, if_neg (by simpa using hspace), hbreak, hbehind, hends]
  rfl

theorem scanFrom_indentation {first? : Option Char} {breaks : List Char} :
    scanFrom false margin reversed (.lines first? breaks) column (List.replicate j ' ' ++ rest) =
      scanFrom false margin reversed (.lines first? breaks) (column + j) rest := by
  induction j generalizing column with
  | zero => rfl
  | succ j ih =>
    rw [List.replicate_succ, List.cons_append, scanFrom, if_pos (by decide)]
    exact ih.trans (by rw [Nat.add_assoc, Nat.add_comm 1])

theorem scanFrom_freshLine (h : beginsWithMarker (List.replicate j ' ' ++ next) = false) :
    scanFrom false margin reversed .nothing column (freshLine j next) =
      scanFrom false margin reversed (.lines (some '\n') []) j next := by
  rw [freshLine, scanFrom, if_neg (by decide), if_pos (by decide), h, if_neg Bool.false_ne_true,
    show Gap.addBreak '\n' .nothing = .lines (some '\n') [] from rfl, scanFrom_indentation,
    Nat.zero_add]

/-- The gap that is open behind a character of a folded text. -/
def IsGapBehind (a : Char) (gap : Gap) : Prop :=
  (a ≠ ' ' ∧ gap = .nothing) ∨ (a = ' ' ∧ ∃ blanks, gap = .blanks blanks)

/-- A character behind which neither a colon nor a hash counts as an indicator. -/
theorem endsAt_eq_false (h : Folds indent c cs ds) (htab : c ≠ '\t')
    (hnone : (c == ':' && endsHere cs) = false) : endsAt false c (ds ++ rest) = false := by
  have hcolon : (c == ':' && endsHere (ds ++ rest)) = false := by
    rw [Bool.and_eq_false_imp] at hnone ⊢
    exact fun hc => h.endsHere_eq (hnone hc)
  rw [endsAt, Bool.false_and, Bool.false_and, Bool.or_false, Bool.or_false, hcolon, Bool.or_false]
  simpa using htab

/-- A space within a line goes to the gap. -/
theorem exists_gapBehind_space (hgap : IsGapBehind a gap) :
    ∃ gap', IsGapBehind ' ' gap' ∧ gap'.text = gap.text ++ [' '] ∧ ∀ margin reversed column rest,
      scanFrom false margin reversed gap column (' ' :: rest) =
        scanFrom false margin reversed gap' (column + 1) rest := by
  obtain ⟨hcrossing, hbehind⟩ : gap.isCrossing = false ∧ IsGapBehind ' ' (gap.addBlank ' ') := by
    rcases hgap with ⟨-, rfl⟩ | ⟨-, blanks, rfl⟩
    · exact ⟨rfl, .inr ⟨rfl, _, rfl⟩⟩
    · exact ⟨rfl, .inr ⟨rfl, _, rfl⟩⟩
  refine ⟨gap.addBlank ' ', hbehind, (Gap.text_addBlank hcrossing ' ').1, fun _ _ _ _ => ?_⟩
  rw [scanFrom, if_pos (by decide)]

/-- What stands behind a gap within a line is part of the text, if it is no hash behind a space. -/
theorem endsBehind_eq_false (hgap : IsGapBehind a gap)
    (hhash : (c == '#' && isBlankOrBreak a) = false) :
    endsBehind false margin column gap c = false := by
  rcases hgap with ⟨-, rfl⟩ | ⟨rfl, blanks, rfl⟩
  · rfl
  · have hblank : isBlankOrBreak ' ' = true := rfl
    rwa [hblank, Bool.and_true] at hhash

/-- A character on a new line is read behind a space. -/
theorem scanFrom_freshChar (hindent : 0 < indent) (hmargin : margin ≤ indent) (hspace : c ≠ ' ')
    (hhash : (c == '#') = false) (hbreak : isBreak c = false) (hends : endsAt false c rest = false) :
    scanFrom false margin reversed .nothing column (freshLine indent (c :: rest)) =
      scanFrom false margin (c :: ' ' :: reversed) .nothing indent rest := by
  have hbehind : endsBehind false margin indent (.lines (some '\n') []) c = false := by
    have hcolumn : ¬ indent < margin := Nat.not_lt.2 hmargin
    simp [endsBehind, hcolumn, hhash]
  rw [scanFrom_freshLine (beginsWithMarker_indented (.inl hindent)),
    scanFrom_char hspace hbreak hbehind hends]
  rfl

/-- **A folded text is read without its folds.** -/
theorem scanFrom_folds (reversed rest : List Char) (column : Nat) (h : Folds indent a cs ds)
    (hindent : 0 < indent) (hmargin : margin ≤ indent) (hgap : IsGapBehind a gap)
    (hnone : Traits.holdsIndicator (a :: cs) = false)
    (hchars : ∀ c ∈ cs, c ≠ '\t' ∧ isBreak c = false) (hlast : (a :: cs).getLast? ≠ some ' ') :
    ∃ column', scanFrom false margin reversed gap column (ds ++ rest) =
      scanFrom false margin (cs.reverse ++ (gap.text.reverse ++ reversed)) .nothing column' rest := by
  induction h generalizing reversed gap column with
  | nil a =>
    rcases hgap with ⟨-, rfl⟩ | ⟨rfl, -⟩
    · exact ⟨column, rfl⟩
    · exact absurd rfl hlast
  | @keep a c cs ds h ih =>
    obtain ⟨hnone', hcolon, hhash⟩ : Traits.holdsIndicator (c :: cs) = false ∧
        (c == ':' && endsHere cs) = false ∧ (c == '#' && isBlankOrBreak a) = false := by
      rw [Traits.holdsIndicator, Bool.or_eq_false_iff, Bool.or_eq_false_iff] at hnone
      exact ⟨hnone.2, hnone.1⟩
    obtain ⟨⟨htab, hbreak⟩, hothers⟩ := List.forall_mem_cons.1 hchars
    have hlast' : (c :: cs).getLast? ≠ some ' ' := by
      rwa [List.getLast?_cons_cons] at hlast
    by_cases hspace : c = ' '
    · subst hspace
      obtain ⟨gap', hgap', htext, hstep⟩ := exists_gapBehind_space hgap
      obtain ⟨column', heq⟩ := ih reversed (column + 1) hgap' hnone' hothers hlast'
      refine ⟨column', ?_⟩
      rw [List.cons_append, hstep, heq, htext]
      simp
    · obtain ⟨column', heq⟩ := ih (c :: (gap.text.reverse ++ reversed)) column
        (.inl ⟨hspace, rfl⟩) hnone' hothers hlast'
      refine ⟨column', ?_⟩
      rw [List.cons_append, scanFrom_char hspace hbreak (endsBehind_eq_false hgap hhash)
        (endsAt_eq_false h htab hcolon), heq]
      simp [Gap.text]
  | @fold a c cs ds ha hc h ih =>
    obtain rfl : gap = .nothing := by
      rcases hgap with ⟨-, hgap⟩ | ⟨hspace, -⟩
      · exact hgap
      · exact absurd hspace ha
    obtain ⟨hnone', hcolon, hhash⟩ : Traits.holdsIndicator (c :: cs) = false ∧
        (c == ':' && endsHere cs) = false ∧ (c == '#') = false := by
      rw [Traits.holdsIndicator, Traits.holdsIndicator, Bool.or_eq_false_iff, Bool.or_eq_false_iff,
        Bool.or_eq_false_iff, show isBlankOrBreak ' ' = true from rfl, Bool.and_true] at hnone
      exact ⟨hnone.2.2, Bool.or_eq_false_iff.1 hnone.2.1⟩
    obtain ⟨-, ⟨htab, hbreak⟩, hothers⟩ :=
      (List.forall_mem_cons.1 hchars).imp id List.forall_mem_cons.1
    have hlast' : (c :: cs).getLast? ≠ some ' ' := by
      rwa [List.getLast?_cons_cons, List.getLast?_cons_cons] at hlast
    obtain ⟨column', heq⟩ := ih (c :: ' ' :: reversed) indent (.inl ⟨hc, rfl⟩) hnone' hothers hlast'
    refine ⟨column', ?_⟩
    have hline : freshLine indent (c :: ds) ++ rest = freshLine indent (c :: (ds ++ rest)) := by
      simp [freshLine]
    rw [hline, scanFrom_freshChar hindent hmargin hc hhash hbreak (endsAt_eq_false h htab hcolon), heq]
    simp [Gap.text]

/-- Another line ends a plain scalar if it is no part of it. -/
theorem scanFrom_resumes (h : Scan.Resumes margin j next) :
    scanFrom false margin reversed .nothing column (freshLine j next) =
      ⟨reversed.reverse, next, true⟩ := by
  rw [scanFrom_freshLine (beginsWithMarker_indented (.inr h.noMarker))]
  cases next with
  | nil => rfl
  | cons c next =>
    have hbefore : j < margin := by
      rcases h.isBefore with hj | ⟨-, hnext⟩
      · exact hj
      · cases hnext
    have hsolid := h.solid
    simp only [isSolid, isFiller, Bool.and_eq_true, Bool.not_eq_true', Bool.or_eq_false_iff] at hsolid
    rw [scanFrom, hsolid.1.1.1.1, hsolid.1.1.2]
    simp [endsBehind, hbefore, Gap.isCrossing]

/-- A colon behind a key ends it. -/
theorem scanFrom_colon (h : endsHere rest = true) :
    scanFrom false margin reversed .nothing column (':' :: rest) =
      ⟨reversed.reverse, ':' :: rest, false⟩ := by
  rw [scanFrom, if_neg (by decide), if_neg (by decide), endsAt, h]
  rfl

/-- The end mark of a document ends a plain scalar. -/
theorem scanFrom_marker (h : beginsWithMarker rest = true) :
    scanFrom false margin reversed .nothing column ('\n' :: rest) =
      ⟨reversed.reverse, rest, true⟩ := by
  rw [scanFrom, if_neg (by decide), if_pos (by decide), if_pos h]

end Unquoted

/-! ## Plain texts -/

/-- A text, not empty, that may be written plain. -/
structure IsPlain (c : Char) (cs : List Char) : Prop where
  chars : ∀ d ∈ c :: cs, isPlainChar d = true ∧ isBreak d = false
  noMarker : beginsLikeMarker (c :: cs) = false
  noLead : Traits.leadsWithIndicator (c :: cs) = false
  noIndicator : Traits.holdsIndicator (c :: cs) = false
  first_ne : c ≠ ' '
  last_ne : (c :: cs).getLast? ≠ some ' '

theorem ne_of_isPlainChar {d : Char} (h : isPlainChar c = true) (hd : isPlainChar d = false) :
    c ≠ d := by
  rintro rfl
  rw [h] at hd
  cases hd

theorem isInline_of_isPlainChar (h : isPlainChar c = true) (hbreak : isBreak c = false) :
    Cursor.isInline c = true := by
  have hmark : c ≠ Cursor.byteOrderMark := ne_of_isPlainChar h (by decide)
  simp [Cursor.isInline, hbreak, hmark]

theorem isPlain_of_allowsPlain (h : (Traits.ofText (c :: cs)).allowsPlain = true) :
    IsPlain c cs := by
  simp only [Traits.ofText, List.isEmpty_cons, Bool.false_eq_true, if_false, Bool.and_eq_true,
    Bool.not_eq_true', Bool.or_eq_false_iff] at h
  obtain ⟨⟨⟨⟨hbreaks, hchars, -⟩, ⟨hmarker, hlead⟩, hindicator⟩, hfirst⟩, hlast⟩ := h
  rw [List.any_eq_false] at hbreaks hchars
  refine ⟨?_, hmarker, hlead, hindicator, ?_, ?_⟩
  · intro d hd
    exact ⟨by simpa using hchars d hd, by simpa using hbreaks d hd⟩
  · rintro rfl
    cases hfirst
  · intro heq
    rw [heq] at hlast
    cases hlast

namespace IsPlain

variable {t : Scan} {tail : List Char} {crossed : Bool}

theorem isBlankOrBreak_eq (h : IsPlain c cs) : isBlankOrBreak c = false := by
  obtain ⟨hplain, hbreak⟩ := h.chars c List.mem_cons_self
  have hne : ∀ d, isPlainChar d = false → c ≠ d := fun d hd => ne_of_isPlainChar hplain hd
  simp [isBlankOrBreak, isGap, hbreak, h.first_ne, hne '\t' (by decide), hne '\r' (by decide),
    hne '\x00' (by decide)]

/-- A plain scalar is fetched in one step, whatever ends it. -/
theorem fetch_eq (h : IsPlain c cs) (hfold : Folds indent c cs ds) (hindent : 0 < indent)
    (ht : t.InBlock) (hmargin : t.margin ≤ indent) {u : List Char} (htail : tail = u ++ rest)
    (hdash : tail.head? ≠ some '-') (hdot : tail.head? ≠ some '.')
    (hends : ∀ reversed column, Unquoted.scanFrom false t.margin reversed .nothing column tail =
      ⟨reversed.reverse, rest, crossed⟩)
    (hrest : t.rest = c :: ds ++ tail) :
    fetch c (ds ++ tail) t =
      .ok (t.behindScalar ((c :: ds).length + u.length) (c :: cs) true crossed) := by
  obtain ⟨hplain, hbreak⟩ := h.chars c List.mem_cons_self
  obtain ⟨hleading, hlone⟩ := Bool.or_eq_false_iff.1 h.noLead
  have hcolon : (c == ':' && endsHere cs) = false := by
    rw [Bool.and_eq_false_imp] at hlone ⊢
    exact fun hc => hlone (by rw [hc, Bool.or_true, Bool.true_or])
  have hlead : Traits.leadsWithIndicator (c :: (ds ++ tail)) = false := by
    rw [Traits.leadsWithIndicator, hleading, Bool.false_or]
    rw [Bool.and_eq_false_imp] at hlone ⊢
    exact fun hc => hfold.endsHere_eq (hlone hc)
  have hmarker : beginsLikeMarker (c :: ds ++ tail) = false :=
    (Folds.keep (a := c) hfold).beginsLikeMarker_eq h.noMarker hdash hdot
  have hfetch : fetch c (ds ++ tail) t = plainScalar t := by
    refine fetch_plain hlead hmarker h.isBlankOrBreak_eq fun hflow => ?_
    rw [ht.inFlow_eq] at hflow
    cases hflow
  have hscan : Unquoted.scan t.inFlow t.margin t.rest = ⟨c :: cs, rest, crossed⟩ := by
    have htab : ∀ d ∈ c :: cs, d ≠ '\t' := fun d hd =>
      ne_of_isPlainChar (h.chars d hd).1 (by decide)
    have hothers : ∀ d ∈ cs, d ≠ '\t' ∧ isBreak d = false := fun d hd =>
      ⟨htab d (List.mem_cons_of_mem _ hd), (h.chars d (List.mem_cons_of_mem _ hd)).2⟩
    obtain ⟨column, heq⟩ := Unquoted.scanFrom_folds [c] tail 0 hfold hindent hmargin
      (.inl ⟨h.first_ne, rfl⟩) h.noIndicator hothers h.last_ne
    rw [ht.inFlow_eq, hrest, Unquoted.scan, List.cons_append,
      Unquoted.scanFrom_char h.first_ne hbreak rfl
        (Unquoted.endsAt_eq_false hfold (htab c List.mem_cons_self) hcolon)]
    refine heq.trans ((hends _ _).trans ?_)
    simp [Gap.text]
  have hsplit : t.rest = (c :: ds ++ u) ++ rest := by rw [hrest, htail, List.append_assoc]
  rw [hfetch, plainScalar_eq ht.isIdle hsplit hscan, List.length_append]

/-- **A plain text with folds spells itself.** -/
theorem spells (h : IsPlain c cs) (hfold : Folds indent c cs ds) (hindent : 0 < indent) :
    Spells indent (c :: ds) (c :: cs) true where
  kept := (Folds.keep (a := c) hfold).isKept fun d hd => isKept_of_isPlainChar (h.chars d hd).1
  solid rest := by
    obtain ⟨hplain, hbreak⟩ := h.chars c List.mem_cons_self
    have hfeed : c ≠ '\n' := by
      rintro rfl
      cases hbreak
    have hhash : c ≠ '#' := by
      rintro rfl
      cases h.noLead
    have hmark : c ≠ Cursor.byteOrderMark := ne_of_isPlainChar hplain (by decide)
    simp [isSolid, isFiller, h.first_ne, hfeed, hbreak, hhash, hmark]
  noMarker d rest hdash hdot := by
    rw [beginsWithMarker, (Folds.keep (a := c) hfold).beginsLikeMarker_eq h.noMarker (by simpa using hdash)
      (by simpa using hdot), Bool.false_and]
  line {t j next} ht hmargin hrest hnext := by
    have hfetch := h.fetch_eq hfold hindent ht.toInBlock hmargin (u := freshLine j [])
      (freshLine_eq_append j next) (by simp [freshLine]) (by simp [freshLine])
      (fun _ _ => Unquoted.scanFrom_resumes hnext) hrest
    exact next_of_freshLine ht rfl (freshLine_eq_append j next) hfetch hrest hnext.solid
      (List.forall_mem_nil _) rfl
  marker _ {t rest} ht hmargin hmarker hsolid hrest := by
    have hfetch := h.fetch_eq hfold hindent ht.toInBlock hmargin (freshLine_eq_append 0 rest)
      (by simp [freshLine]) (by simp [freshLine]) (fun _ _ => Unquoted.scanFrom_marker hmarker) hrest
    exact next_of_freshLine (j := 0) ht rfl (freshLine_eq_append 0 rest) hfetch hrest hsolid
      (List.forall_mem_nil _) rfl
  colon hinline hlength {t rest} ht hcolumn hmargin hends hrest := by
    have hfetch := h.fetch_eq hfold hindent ht hmargin (List.nil_append _).symm (by simp) (by simp)
      (fun _ _ => Unquoted.scanFrom_colon hends) hrest
    exact next_of_colon ht hcolumn rfl hrest hfetch hinline hlength

end IsPlain

/-! ## Writing -/

namespace Pen

variable {p q : Pen} {mayFold : Bool} {w : List Char} {rs : List (RunKind × List Char)}

/-- Behind a character a text is written with folds, if there may be any, and no end marker
becomes due. -/
structure WritesFolded (p q : Pen) (indent : Nat) (mayFold : Bool) (a : Char) (cs w : List Char) :
    Prop where
  folds : Folds indent a cs w
  eq_of_mayNotFold : mayFold = false → w = cs
  writes : p.Writes w q
  ended : q.Ended
  isOpen_eq : q.isOpen = p.isOpen

theorem WritesFolded.nil (hp : p.Ended) : p.WritesFolded p indent mayFold a [] [] :=
  ⟨.nil a, fun _ => rfl, .refl p, hp, rfl⟩

/-- A run is written as it is. -/
theorem WritesFolded.run {run : List Char} (hne : run ≠ [])
    (h : (p.put run).WritesFolded q indent mayFold (run.getLast hne) cs w) :
    p.WritesFolded q indent mayFold a (run ++ cs) (run ++ w) where
  folds := h.folds.keep_append hne
  eq_of_mayNotFold hfold := by rw [h.eq_of_mayNotFold hfold]
  writes := (writes_put p run).trans h.writes
  ended := h.ended
  isOpen_eq := h.isOpen_eq

/-- A single space is written as a line break. -/
theorem WritesFolded.fold (hp : p.Ended) (ha : a ≠ ' ') (hc : c ≠ ' ')
    (h : (p.fold indent).WritesFolded q indent true ' ' (c :: cs) w) :
    p.WritesFolded q indent true a (' ' :: c :: cs) (freshLine indent w) := by
  obtain ⟨ds, rfl, hds⟩ := h.folds.exists_cons (.inr rfl)
  have hline : p.Writes (freshLine indent []) (p.fold indent) := by
    have hwrites := writes_indentTo (needsLine_of_ended hp indent)
    rw [freshLine, List.append_nil]
    exact ⟨hwrites.reversed_eq, hwrites.isOpen_eq⟩
  refine ⟨.fold ha hc hds, fun hfold => absurd hfold (by decide), ?_, h.ended,
    h.isOpen_eq.trans (isOpen_indentTo p indent)⟩
  rw [freshLine_eq_append]
  exact hline.trans h.writes

/-- Behind spaces a word comes. -/
theorem Alternates.exists_cons_of_spaces (h : Alternates rs)
    (hnext : ∀ r ∈ rs.head?, RunKind.spaces = .word ↔ r.1 ≠ .word) (hne : rs ≠ []) :
    ∃ c cs, rs.flatMap Prod.snd = c :: cs ∧ c ≠ ' ' := by
  cases h with
  | nil => exact absurd rfl hne
  | @cons kind run rest hrun hkind =>
    obtain ⟨c, cs, rfl⟩ := List.exists_cons_of_ne_nil hrun
    have hword : kind = .word := by
      refine Decidable.byContradiction fun hother => ?_
      cases (hnext _ rfl).2 hother
    exact ⟨c, _, rfl, (runKind_eq_word.1 ((hkind c List.mem_cons_self).trans hword)).1⟩

/-- The runs of a plain text are written with folds, if there may be any. -/
theorem exists_writesFolded (indent : Nat) (mayFold : Bool) (h : Alternates rs) (hp : p.Ended)
    (ha : ∀ r ∈ rs.head?, runKind a = .word ↔ r.1 ≠ .word)
    (hlast : (rs.flatMap Prod.snd).getLast? ≠ some ' ') :
    ∃ w, p.WritesFolded (plainRuns p indent mayFold rs) indent mayFold a (rs.flatMap Prod.snd) w := by
  induction h generalizing p a with
  | nil => exact ⟨[], .nil hp⟩
  | @cons kind run rest hne hkind hnext hrest ih =>
    rw [List.flatMap_cons] at hlast ⊢
    have hlast' : (rest.flatMap Prod.snd).getLast? ≠ some ' ' := by
      intro heq
      rw [List.getLast?_append, heq] at hlast
      exact hlast rfl
    rw [plainRuns]
    dsimp only
    split
    · next hfold =>
      simp only [Bool.and_eq_true, decide_eq_true_eq, beq_iff_eq] at hfold
      obtain ⟨⟨⟨rfl, hlength⟩, -⟩, rfl⟩ := hfold
      obtain ⟨b, rfl⟩ := List.length_eq_one_iff.1 hlength
      obtain rfl : b = ' ' := runKind_eq_spaces.1 (hkind b List.mem_cons_self)
      have hspace : a ≠ ' ' := by
        rintro rfl
        have hword := (ha (.spaces, [' ']) rfl).2 (by decide)
        cases hword
      have hmore : rest ≠ [] := by
        rintro rfl
        exact hlast rfl
      obtain ⟨c, cs, hcs, hc⟩ := hrest.exists_cons_of_spaces hnext hmore
      obtain ⟨w, hw⟩ := ih (p := p.fold indent) (a := ' ') ⟨rfl, rfl⟩ hnext hlast'
      rw [hcs] at hw ⊢
      exact ⟨_, hw.fold hp hspace hc⟩
    · have hnext' : ∀ r ∈ rest.head?, runKind (run.getLast hne) = .word ↔ r.1 ≠ .word := by
        rwa [hkind _ (List.getLast_mem hne)]
      obtain ⟨w, hw⟩ := ih (p := p.put run) ⟨hp.afterBlank_eq, hp.atIndent_eq⟩ hnext' hlast'
      exact ⟨_, hw.run hne⟩

/-- **A plain text is written with folds.** -/
theorem writes_plain (h : IsPlain c cs) (p : Pen) (indent : Nat) (mayFold : Bool) :
    ∃ ds, Folds indent c cs ds ∧ (mayFold = false → ds = cs) ∧
      p.Writes (p.lead ++ c :: ds) (p.plain indent false mayFold (c :: cs)) ∧
      (p.plain indent false mayFold (c :: cs)).Ended ∧
      (p.plain indent false mayFold (c :: cs)).isOpen = p.isOpen := by
  have hfollows := follows_of_noBreak fun d hd => (h.chars d hd).2
  have hruns := alternates_runs hfollows.1 hfollows.2
  let q : Pen := { if p.afterBlank then p else p.put [' '] with afterBlank := false, atIndent := false }
  have hlead : p.Writes p.lead q :=
    ⟨(writes_lead p).reversed_eq, (writes_lead p).isOpen_eq⟩
  have hopen : q.isOpen = p.isOpen := by
    show (if p.afterBlank then p else p.put [' ']).isOpen = _
    split <;> rfl
  -- Only spaces may not stand first, and the text begins with none.
  have hfirst : ∀ r ∈ (runs (c :: cs)).head?, runKind ' ' = .word ↔ r.1 ≠ .word := by
    intro r hr
    rw [kind_of_head_runs r hr, runKind_eq_word.2 ⟨h.first_ne, (h.chars c List.mem_cons_self).2⟩]
    decide
  have hplain : p.plain indent false mayFold (c :: cs) =
      plainRuns q indent mayFold (runs (c :: cs)) := rfl
  have hlast : ((runs (c :: cs)).flatMap Prod.snd).getLast? ≠ some ' ' := by
    rw [flatMap_runs]
    exact h.last_ne
  obtain ⟨w, hw⟩ := exists_writesFolded (p := q) (a := ' ') indent mayFold hruns ⟨rfl, rfl⟩ hfirst hlast
  rw [flatMap_runs] at hw
  obtain ⟨ds, rfl, hds⟩ := hw.folds.exists_cons (.inr rfl)
  rw [hplain]
  refine ⟨ds, hds, ?_, hlead.trans hw.writes, hw.ended, hw.isOpen_eq.trans hopen⟩
  exact fun hfold => (List.cons.inj (hw.eq_of_mayNotFold hfold)).2

end Pen
end Stencil.Yaml
