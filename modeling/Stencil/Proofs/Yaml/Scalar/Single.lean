import Stencil.Proofs.Yaml.Escape
import Stencil.Proofs.Yaml.Pen
import Stencil.Proofs.Yaml.Spelling

/-!
# Single-quoted scalars are read back

A text in single quotes is written run by run (`QuotesRun`): a word with its quotes doubled, spaces
as they are or, if it is one, as a line break, and line breaks with one more before them if the
first is a line feed. Each kind is read as what it was made of, a next-line character apart: inside a
scalar that stands for a line feed.
-/

namespace Stencil.Yaml

variable {a c : Char} {cs rest run v w reversed : List Char} {indent : Nat} {gap : Gap}
  {kind : Pen.RunKind} {rs : List (Pen.RunKind × List Char)}

/-! ## Quoted runs -/

/-- A character inside single quotes. -/
def doubled (c : Char) : List Char := if c == '\x27' then ['\x27', '\x27'] else [c]

theorem mem_doubled {d : Char} (h : d ∈ doubled c) : d = c ∨ d = '\x27' := by
  unfold doubled at h
  split at h
  · exact .inr (by simpa using h)
  · exact .inl (List.mem_singleton.1 h)

theorem length_flatMap_doubled_le (cs : List Char) : (cs.flatMap doubled).length ≤ 2 * cs.length := by
  induction cs with
  | nil => exact Nat.le_refl _
  | cons c cs ih =>
    have hc : (doubled c).length ≤ 2 := by
      unfold doubled
      split <;> simp
    rw [List.flatMap_cons, List.length_append, List.length_cons]
    omega

theorem flatMap_doubled_ne_nil (h : run ≠ []) : run.flatMap doubled ≠ [] := by
  obtain ⟨c, run, rfl⟩ := List.exists_cons_of_ne_nil h
  rw [List.flatMap_cons, doubled]
  split <;> exact List.cons_ne_nil _ _

theorem flatMap_doubled_of_spaces (h : ∀ c ∈ run, c = ' ') : run.flatMap doubled = run := by
  induction run with
  | nil => rfl
  | cons c run ih =>
    obtain ⟨rfl, hothers⟩ := List.forall_mem_cons.1 h
    rw [List.flatMap_cons, ih hothers]
    rfl

/-- A run of a text as it may be written in single quotes. -/
inductive QuotesRun (indent : Nat) : Pen.RunKind → List Char → List Char → Prop
  | word (run : List Char) : QuotesRun indent .word run (run.flatMap doubled)
  | spaces (run : List Char) : QuotesRun indent .spaces run run
  | fold : QuotesRun indent .spaces [' '] (freshLine indent [])
  | breaks (run : List Char) : QuotesRun indent .breaks run
      ((if run.head? == some '\n' then ['\n'] else []) ++ (run ++ List.replicate indent ' '))

/-- The runs of a text one after the other. -/
inductive Quotes (indent : Nat) : List (Pen.RunKind × List Char) → List Char → Prop
  | nil : Quotes indent [] []
  | cons {kind : Pen.RunKind} {run v w : List Char} {rs : List (Pen.RunKind × List Char)}
      (h : QuotesRun indent kind run v) (hs : Quotes indent rs w) :
      Quotes indent ((kind, run) :: rs) (v ++ w)

theorem QuotesRun.isKept (h : QuotesRun indent kind run w) (hrun : ∀ c ∈ run, isKept c = true) :
    ∀ c ∈ w, Yaml.isKept c = true := by
  cases h with
  | word =>
    intro c hc
    obtain ⟨d, hd, hc⟩ := List.mem_flatMap.1 hc
    rcases mem_doubled hc with rfl | rfl
    · exact hrun c hd
    · rfl
  | spaces => exact hrun
  | fold => exact isKept_freshLine indent (List.forall_mem_nil _)
  | breaks =>
    refine List.forall_mem_append.2 ⟨?_, List.forall_mem_append.2 ⟨hrun, ?_⟩⟩
    · split
      · exact List.forall_mem_singleton.2 rfl
      · exact List.forall_mem_nil _
    · intro c hc
      rw [(List.mem_replicate.1 hc).2]
      rfl

theorem Quotes.isKept (h : Quotes indent rs w) (hrs : ∀ c ∈ rs.flatMap Prod.snd, isKept c = true) :
    ∀ c ∈ w, Yaml.isKept c = true := by
  induction h with
  | nil => exact List.forall_mem_nil _
  | cons hrun _ ih =>
    rw [List.flatMap_cons] at hrs
    obtain ⟨hrun', hothers⟩ := List.forall_mem_append.1 hrs
    exact List.forall_mem_append.2 ⟨hrun.isKept hrun', ih hothers⟩

/-! ## Reading -/

namespace Quoted

/-- A closing single quote is one behind which no other comes. -/
theorem scanFrom_closeSingle (h : rest.head? ≠ some '\x27') :
    scanFrom false reversed (.text gap) ('\x27' :: rest) =
      .ok (reversed.reverse ++ gap.text, rest) := by
  have hquote : step false (.text gap) '\x27' rest = .ok (gap.text, some .quote) := by
    simp [step, isGap, isBreak]
  rw [scanFrom, hquote]
  cases rest with
  | nil => simp [scanFrom]
  | cons c rest =>
    have hc : c ≠ '\x27' := by simpa using h
    have hend : step false .quote c rest = .ok ([], none) := by simp [step, hc]
    dsimp only
    rw [scanFrom, hend]
    simp [afterEnd]

theorem scanFrom_doubled (hgap : isGap c = false) (hbreak : isBreak c = false) :
    scanFrom false reversed (.text gap) (doubled c ++ rest) =
      scanFrom false (c :: (gap.text.reverse ++ reversed)) (.text .nothing) rest := by
  unfold doubled
  by_cases hc : c = '\x27'
  · subst hc
    have hquote : ∀ cs, step false (.text gap) '\x27' cs = .ok (gap.text, some .quote) := by
      intro cs
      simp [step, isGap, isBreak]
    rw [if_pos (beq_self_eq_true _), List.cons_append, scanFrom, hquote]
    rfl
  · have hstep : step false (.text gap) c rest = .ok (gap.text ++ [c], some (.text .nothing)) := by
      simp [step, hgap, hbreak, hc]
    rw [if_neg (by simpa using hc), List.singleton_append, scanFrom, hstep]
    simp

/-- A word is read character by character. -/
theorem scanFrom_quotedWord (hne : run ≠ [])
    (h : ∀ c ∈ run, isGap c = false ∧ isBreak c = false) :
    scanFrom false reversed (.text gap) (run.flatMap doubled ++ rest) =
      scanFrom false (run.reverse ++ (gap.text.reverse ++ reversed)) (.text .nothing) rest := by
  induction run generalizing reversed gap with
  | nil => exact absurd rfl hne
  | cons c run ih =>
    obtain ⟨⟨hgap, hbreak⟩, hothers⟩ := List.forall_mem_cons.1 h
    rw [List.flatMap_cons, List.append_assoc, scanFrom_doubled hgap hbreak]
    cases run with
    | nil => rfl
    | cons d run =>
      rw [ih (List.cons_ne_nil _ _) hothers]
      simp [Gap.text]

theorem scanFrom_break {isDouble : Bool} (hc : isBreak c = true)
    (hmarker : beginsWithMarker rest = false) :
    scanFrom isDouble reversed (.text gap) (c :: rest) =
      scanFrom isDouble reversed (.text (gap.addBreak c)) rest := by
  have hstep : step isDouble (.text gap) c rest = .ok ([], some (.text (gap.addBreak c))) := by
    simp [step, isGap_of_isBreak hc, hc, hmarker]
  rw [scanFrom, hstep]
  rfl

/-- No mark of a document begins behind a line break of a scalar. -/
theorem beginsWithMarker_breaks (rest : List Char) (h : ∀ c ∈ run, isBreak c = true)
    (hindent : 0 < indent) :
    beginsWithMarker (run ++ (List.replicate indent ' ' ++ rest)) = false := by
  cases run with
  | nil => exact beginsWithMarker_indented (.inl hindent)
  | cons c run =>
    have hc := h c List.mem_cons_self
    refine beginsWithMarker_cons ?_ ?_ _
    · rintro rfl
      cases hc
    · rintro rfl
      cases hc

/-- The line breaks behind the first stand for themselves. -/
theorem scanFrom_breaks {isDouble : Bool} {first? : Option Char} {breaks : List Char}
    (h : ∀ c ∈ run, isBreak c = true ∧ c ≠ '\x85') (hindent : 0 < indent) :
    scanFrom isDouble reversed (.text (.lines first? breaks))
        (run ++ (List.replicate indent ' ' ++ rest)) =
      scanFrom isDouble reversed (.text (.lines first? (run.reverse ++ breaks))) rest := by
  induction run generalizing breaks with
  | nil => exact scanFrom_indentation
  | cons c run ih =>
    obtain ⟨⟨hbreak, hnext⟩, hothers⟩ := List.forall_mem_cons.1 h
    have hmarker : beginsWithMarker (run ++ (List.replicate indent ' ' ++ rest)) = false :=
      beginsWithMarker_breaks _ (fun d hd => (hothers d hd).1) hindent
    have hsame : breakChar c = c := if_neg (by simpa using hnext)
    rw [List.cons_append, scanFrom_break hbreak hmarker, Gap.addBreak, hsame, ih hothers]
    simp

/-- Spaces within a line stand for themselves. -/
theorem exists_gap_of_spaces (h : ∀ c ∈ run, c = ' ') (hgap : gap.isCrossing = false) :
    ∃ gap' : Gap, gap'.text = gap.text ++ run ∧ ∀ reversed rest,
      scanFrom false reversed (.text gap) (run ++ rest) =
        scanFrom false reversed (.text gap') rest := by
  induction run generalizing gap with
  | nil => exact ⟨gap, (List.append_nil _).symm, fun _ _ => rfl⟩
  | cons c run ih =>
    obtain ⟨rfl, hothers⟩ := List.forall_mem_cons.1 h
    obtain ⟨htext, hcrossing⟩ := Gap.text_addBlank hgap ' '
    obtain ⟨gap', htext', hscan⟩ := ih hothers hcrossing
    refine ⟨gap', ?_, ?_⟩
    · rw [htext', htext, List.append_assoc]
      rfl
    · intro reversed rest
      rw [List.cons_append, scanFrom_gap rfl, hscan]

/-- What stands between two words is read as a gap with its text. -/
theorem exists_gap (h : QuotesRun indent kind run w) (hword : kind ≠ .word) (hne : run ≠ [])
    (hkind : ∀ c ∈ run, Pen.runKind c = kind) (hnext : ∀ c ∈ run, c ≠ '\x85') (hindent : 0 < indent) :
    ∃ gap : Gap, gap.text = run ∧ ∀ reversed rest,
      scanFrom false reversed (.text .nothing) (w ++ rest) =
        scanFrom false reversed (.text gap) rest := by
  cases h with
  | word => exact absurd rfl hword
  | spaces =>
    have hgap : Gap.nothing.isCrossing = false := rfl
    exact exists_gap_of_spaces (fun c hc => Pen.runKind_eq_spaces.1 (hkind c hc)) hgap
  | fold =>
    refine ⟨.lines (some '\n') [], rfl, fun reversed rest => ?_⟩
    have hmarker : beginsWithMarker (List.replicate indent ' ' ++ rest) = false :=
      beginsWithMarker_indented (.inl hindent)
    rw [freshLine, List.append_nil, List.cons_append, scanFrom_break rfl hmarker]
    exact scanFrom_indentation
  | breaks =>
    obtain ⟨c, run, rfl⟩ := List.exists_cons_of_ne_nil hne
    have hbreak : ∀ d ∈ c :: run, isBreak d = true := fun d hd => Pen.runKind_eq_breaks.1 (hkind d hd)
    obtain ⟨hc, hothers⟩ := List.forall_mem_cons.1 hbreak
    obtain ⟨hnextc, hnexts⟩ := List.forall_mem_cons.1 hnext
    have hsame : breakChar c = c := if_neg (by simpa using hnextc)
    by_cases hfeed : c = '\n'
    · subst hfeed
      refine ⟨.lines (some '\n') (('\n' :: run).reverse ++ []), by simp [Gap.text], fun reversed rest => ?_⟩
      have hmarker := beginsWithMarker_breaks rest hbreak hindent
      have hall : ∀ d ∈ '\n' :: run, isBreak d = true ∧ d ≠ '\x85' := fun d hd =>
        ⟨hbreak d hd, hnext d hd⟩
      rw [List.head?_cons, if_pos (by decide), List.singleton_append, List.cons_append,
        List.append_assoc, scanFrom_break rfl hmarker]
      exact scanFrom_breaks hall hindent
    · refine ⟨.lines (some c) (run.reverse ++ []), by simp [Gap.text, hfeed], fun reversed rest => ?_⟩
      have hmarker := beginsWithMarker_breaks rest hothers hindent
      have hall : ∀ d ∈ run, isBreak d = true ∧ d ≠ '\x85' := fun d hd =>
        ⟨hothers d hd, hnexts d hd⟩
      rw [List.head?_cons, if_neg (by simpa using hfeed), List.nil_append, List.append_assoc,
        List.cons_append, scanFrom_break hc hmarker,
        show Gap.addBreak c .nothing = .lines (some (breakChar c)) [] from rfl, hsame]
      exact scanFrom_breaks hall hindent

/-- **Quoted runs are read as the text that they were made of.** -/
theorem scanFrom_quotes (h : Quotes indent rs w) (halternates : Pen.Alternates rs)
    (hchars : ∀ c ∈ rs.flatMap Prod.snd, c ≠ '\t' ∧ c ≠ '\x85') (hindent : 0 < indent)
    (hgap : gap = .nothing ∨ ∀ r ∈ rs.head?, r.1 = .word) (hrest : rest.head? ≠ some '\x27') :
    scanFrom false reversed (.text gap) (w ++ '\x27' :: rest) =
      .ok (reversed.reverse ++ gap.text ++ rs.flatMap Prod.snd, rest) := by
  induction h generalizing reversed gap with
  | nil =>
    rw [List.nil_append, scanFrom_closeSingle hrest, List.flatMap_nil, List.append_nil]
  | @cons kind run v w rs hrun _ ih =>
    obtain ⟨hne, hkind, hnext, hrest'⟩ : run ≠ [] ∧ (∀ c ∈ run, Pen.runKind c = kind) ∧
        (∀ r ∈ rs.head?, kind = .word ↔ r.1 ≠ .word) ∧ Pen.Alternates rs := by
      cases halternates with
      | cons hne hkind hnext hrest' => exact ⟨hne, hkind, hnext, hrest'⟩
    rw [List.flatMap_cons] at hchars ⊢
    obtain ⟨hchars, hothers⟩ := List.forall_mem_append.1 hchars
    rw [List.append_assoc]
    by_cases hword : kind = .word
    · subst hword
      have hinside : ∀ c ∈ run, isGap c = false ∧ isBreak c = false := by
        intro c hc
        obtain ⟨hspace, hbreak⟩ := Pen.runKind_eq_word.1 (hkind c hc)
        exact ⟨by simp [isGap, hspace, (hchars c hc).1], hbreak⟩
      cases hrun
      rw [scanFrom_quotedWord hne hinside, ih hrest' hothers (.inl rfl)]
      simp [Gap.text]
    · obtain rfl : gap = .nothing := by
        rcases hgap with hgap | hgap
        · exact hgap
        · exact absurd (hgap _ rfl) hword
      obtain ⟨gap, htext, hscan⟩ := exists_gap hrun hword hne hkind (fun c hc => (hchars c hc).2) hindent
      have hwords : ∀ r ∈ rs.head?, r.1 = .word := fun r hr =>
        Decidable.byContradiction fun hother => hword ((hnext r hr).2 hother)
      rw [hscan, ih hrest' hothers (.inr hwords), htext]
      simp [Gap.text]

end Quoted

/-! ## Writing -/

/-- A text that may be written in single quotes. -/
structure IsSingle (cs : List Char) : Prop where
  chars : ∀ c ∈ cs, isPlainChar c = true
  alternates : Pen.Alternates (Pen.runs cs)

theorem isSingle_of_allowsSingle (h : (Traits.ofText cs).allowsSingle = true) : IsSingle cs := by
  cases cs with
  | nil => exact ⟨List.forall_mem_nil _, .nil⟩
  | cons c cs =>
    simp only [Traits.ofText, List.isEmpty_cons, Bool.false_eq_true, if_false, Bool.and_eq_true,
      Bool.not_eq_true', Bool.or_eq_false_iff] at h
    obtain ⟨⟨hchars, hspaces⟩, hbreaks⟩ := h
    rw [List.any_eq_false] at hchars
    exact ⟨fun d hd => by simpa using hchars d hd, Pen.alternates_runs hspaces hbreaks⟩

namespace Pen

variable {p q r : Pen} {mayFold : Bool}

/-- A line can be broken here for the next run, or need not be. -/
def CanFold (p : Pen) (indent : Nat) (rs : List (RunKind × List Char)) : Prop :=
  p.atIndent = false ∨ indent < p.column ∨ (indent ≤ p.column ∧ ∀ r ∈ rs.head?, r.1 = .word)

theorem CanFold.put (h : p.CanFold indent ((kind, run) :: rs)) (hw : w ≠ []) :
    (p.put w).CanFold indent rs := by
  have hlength : 0 < w.length := List.length_pos_iff.2 hw
  rcases h with hindent | hcolumn | ⟨hcolumn, -⟩
  · exact .inl hindent
  · refine .inr (.inl ?_)
    show indent < p.column + w.length
    omega
  · refine .inr (.inl ?_)
    show indent < p.column + w.length
    omega

/-- A line break may be written for spaces, since they do not stand at the indentation. -/
theorem CanFold.needsLine (h : p.CanFold indent ((.spaces, run) :: rs)) :
    p.needsLine indent = true := by
  rcases h with hindent | hcolumn | ⟨-, hword⟩
  · rw [Pen.needsLine, hindent]
    rfl
  · rw [Pen.needsLine, decide_eq_true hcolumn]
    simp
  · cases hword _ rfl

/-- The line breaks of a text end at the indentation. -/
theorem quotedBreaks_eq (p : Pen) (indent : Nat) (hne : run ≠ []) :
    p.Writes ((if run.head? == some '\n' then ['\n'] else []) ++ (run ++ List.replicate indent ' '))
        (p.quotedBreaks indent run) ∧ (p.quotedBreaks indent run).column = indent := by
  let q := if run.head? == some '\n' then p.newline '\n' else p
  have hfirst : p.Writes (if run.head? == some '\n' then ['\n'] else []) q := by
    unfold q
    split
    · exact writes_newline p '\n'
    · exact .refl p
  -- Behind the last of the breaks the pen stands at the begin of a line.
  have hline : ∀ (run : List Char) (p : Pen), run ≠ [] → (run.foldl newline p).column = 0 ∧
      (run.foldl newline p).needsLine indent = false := by
    intro run
    induction run with
    | nil => exact fun _ hne => absurd rfl hne
    | cons c run ih =>
      intro p _
      cases run with
      | nil => exact ⟨rfl, by simp [needsLine, newline]⟩
      | cons d run => exact ih (p.newline c) (List.cons_ne_nil _ _)
  obtain ⟨hcolumn, hneeds⟩ := hline run q hne
  have hbreaks := writes_newlines q run
  have heq : p.quotedBreaks indent run = (run.foldl newline q).indentTo indent := rfl
  rw [heq, indentTo_of_not_needsLine hneeds, hcolumn]
  exact ⟨hfirst.trans (hbreaks.trans ⟨rfl, id⟩), rfl⟩

/-- Runs are written in single quotes, and on one line if there may be no folds and are no line
breaks. -/
structure WritesQuoted (p q : Pen) (indent : Nat) (mayFold : Bool) (rs : List (RunKind × List Char))
    (w : List Char) : Prop where
  quotes : Quotes indent rs w
  eq_of_mayNotFold : mayFold = false → (∀ c ∈ rs.flatMap Prod.snd, isBreak c = false) →
    w = (rs.flatMap Prod.snd).flatMap doubled
  writes : p.Writes w q

theorem WritesQuoted.nil (p : Pen) (indent : Nat) (mayFold : Bool) :
    p.WritesQuoted p indent mayFold [] [] :=
  ⟨.nil, fun _ _ => rfl, .refl p⟩

theorem WritesQuoted.cons (hrun : QuotesRun indent kind run v) (hwrites : p.Writes v q)
    (hsame : mayFold = false → (∀ c ∈ run, isBreak c = false) → v = run.flatMap doubled)
    (h : q.WritesQuoted r indent mayFold rs w) :
    p.WritesQuoted r indent mayFold ((kind, run) :: rs) (v ++ w) := by
  refine ⟨.cons hrun h.quotes, ?_, hwrites.trans h.writes⟩
  intro hfold hbreak
  rw [List.flatMap_cons] at hbreak ⊢
  obtain ⟨hrun', hothers⟩ := List.forall_mem_append.1 hbreak
  rw [List.flatMap_append, ← hsame hfold hrun', ← h.eq_of_mayNotFold hfold hothers]

/-- The runs of a text are written in single quotes, with folds if there may be any. -/
theorem exists_writesQuoted (indent : Nat) (mayFold isFirst : Bool) (p : Pen) (h : Alternates rs)
    (hp : p.CanFold indent rs) :
    ∃ w, p.WritesQuoted (singleRuns p indent mayFold isFirst rs) indent mayFold rs w := by
  induction h generalizing p isFirst with
  | nil => exact ⟨[], .nil p indent mayFold⟩
  | @cons kind run rest hne hkind hnext hrest ih =>
    have hwords : kind ≠ .word → ∀ r ∈ rest.head?, r.1 = .word := fun hkind r hr =>
      Decidable.byContradiction fun hother => hkind ((hnext r hr).2 hother)
    cases kind with
    | word =>
      rw [singleRuns]
      have hput := hp.put (flatMap_doubled_ne_nil hne)
      obtain ⟨w, hw⟩ := ih false (p.put (run.flatMap doubled)) hput
      exact ⟨_, .cons (.word run) (writes_put p _) (fun _ _ => rfl) hw⟩
    | spaces =>
      have hrun : ∀ c ∈ run, c = ' ' := fun c hc => runKind_eq_spaces.1 (hkind c hc)
      rw [singleRuns]
      split
      · next hfold =>
        simp only [Bool.and_eq_true, decide_eq_true_eq, beq_iff_eq] at hfold
        obtain ⟨⟨⟨⟨hlength, -⟩, rfl⟩, -⟩, -⟩ := hfold
        obtain ⟨c, rfl⟩ := List.length_eq_one_iff.1 hlength
        obtain rfl : c = ' ' := hrun c List.mem_cons_self
        have hcolumn : (p.indentTo indent).column = indent := by
          rw [indentTo_of_needsLine hp.needsLine]
        have hline : p.Writes (freshLine indent []) (p.indentTo indent) := by
          rw [freshLine, List.append_nil]
          exact writes_indentTo hp.needsLine
        obtain ⟨w, hw⟩ := ih false (p.indentTo indent)
          (.inr (.inr ⟨Nat.le_of_eq hcolumn.symm, hwords (by decide)⟩))
        exact ⟨_, .cons .fold hline (fun hfold => absurd hfold (by decide)) hw⟩
      · obtain ⟨w, hw⟩ := ih false (p.put run) (hp.put hne)
        exact ⟨_, .cons (.spaces run) (writes_put p run)
          (fun _ _ => (flatMap_doubled_of_spaces hrun).symm) hw⟩
    | breaks =>
      rw [singleRuns]
      obtain ⟨hbreaks, hcolumn⟩ := quotedBreaks_eq p indent hne
      have hnone : ¬ ∀ c ∈ run, isBreak c = false := by
        intro hbreak
        obtain ⟨c, run, rfl⟩ := List.exists_cons_of_ne_nil hne
        have hc := runKind_eq_breaks.1 (hkind c List.mem_cons_self)
        rw [hbreak c List.mem_cons_self] at hc
        cases hc
      obtain ⟨w, hw⟩ := ih false (p.quotedBreaks indent run)
        (.inr (.inr ⟨Nat.le_of_eq hcolumn.symm, hwords (by decide)⟩))
      exact ⟨_, .cons (.breaks run) hbreaks (fun _ hbreak => absurd hbreak hnone) hw⟩

/-- **A text is written in single quotes**, and spelled by them if it has no next-line character. -/
theorem writes_single (h : IsSingle cs) (hnext : ∀ c ∈ cs, c ≠ '\x85') (p : Pen)
    (hindent : 0 < indent) (mayFold : Bool) :
    ∃ w, Spells indent ('\x27' :: w) cs false ∧
      (mayFold = false → (∀ c ∈ cs, isBreak c = false) → w = cs.flatMap doubled ++ ['\x27']) ∧
      p.Writes (p.lead ++ '\x27' :: w) (p.single indent mayFold cs) ∧
      (p.single indent mayFold cs).Ended := by
  let q := p.indicator ['\x27'] true false false
  have hq : q.atIndent = false := Bool.and_false _
  obtain ⟨w, hw⟩ := exists_writesQuoted indent mayFold true q h.alternates (.inl hq)
  have hchars : ∀ c ∈ (runs cs).flatMap Prod.snd, c ≠ '\t' ∧ c ≠ '\x85' := by
    intro c hc
    rw [flatMap_runs] at hc
    refine ⟨?_, hnext c hc⟩
    rintro rfl
    cases h.chars _ hc
  have hscan : ∀ rest, rest.head? ≠ some '\x27' →
      Quoted.scan false (w ++ ['\x27'] ++ rest) = .ok (cs, rest) := by
    intro rest hrest
    rw [List.append_assoc, Quoted.scan, List.singleton_append,
      Quoted.scanFrom_quotes hw.quotes h.alternates hchars hindent (.inl rfl) hrest, flatMap_runs]
    rfl
  have hkept : ∀ c ∈ w ++ ['\x27'], isKept c = true := by
    refine List.forall_mem_append.2 ⟨hw.quotes.isKept ?_, List.forall_mem_singleton.2 rfl⟩
    rw [flatMap_runs]
    exact fun c hc => isKept_of_isPlainChar (h.chars c hc)
  refine ⟨w ++ ['\x27'], spells_quoted false hkept hscan, ?_, ?_, ⟨rfl, Bool.and_false _⟩⟩
  · intro hfold hbreak
    rw [hw.eq_of_mayNotFold hfold (by rwa [flatMap_runs]), flatMap_runs]
  · have hopening := writes_indicator p ['\x27'] false false
    have hclosing := writes_mark (q.singleRuns indent mayFold true (runs cs)) ['\x27'] false false
    have hall := hopening.trans (hw.writes.trans hclosing)
    rwa [List.append_assoc] at hall

end Pen
end Stencil.Yaml
