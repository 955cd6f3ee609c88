import Stencil.Yaml.Pen

/-!
# What a pen writes

A way from one state of writing to another *writes* some characters if it puts them behind those
that are there (`Pen.Writes`). Going to an indentation writes a line break if the pen cannot go
there on its line, and then only spaces.

The runs of a text in which no space stands beside a line break alternate between words and what
stands between them (`Pen.Alternates`); the induction on runs goes along that.
-/

namespace Stencil.Yaml.Pen

variable {p q r : Pen} {c : Char} {cs v w : List Char} {indent : Nat}

/-! ## Writing -/

/-- From one state to another some characters are written, and no end marker becomes due. -/
structure Writes (p : Pen) (w : List Char) (q : Pen) : Prop where
  reversed_eq : q.reversed = w.reverse ++ p.reversed
  isOpen_eq : p.isOpen = false → q.isOpen = false

theorem Writes.refl (p : Pen) : p.Writes [] p := ⟨rfl, id⟩

theorem Writes.trans (h : p.Writes v q) (h' : q.Writes w r) : p.Writes (v ++ w) r where
  reversed_eq := by
    rw [h'.reversed_eq, h.reversed_eq, List.reverse_append, List.append_assoc]
  isOpen_eq hopen := h'.isOpen_eq (h.isOpen_eq hopen)

theorem Writes.text_eq (h : p.Writes w q) : q.text = p.text ++ w := by
  rw [text, h.reversed_eq, List.reverse_append, List.reverse_reverse]
  rfl

theorem writes_put (p : Pen) (w : List Char) : p.Writes w (p.put w) := ⟨rfl, id⟩

theorem writes_newline (p : Pen) (c : Char) : p.Writes [c] (p.newline c) := ⟨rfl, id⟩

theorem writes_newlines (p : Pen) (w : List Char) : p.Writes w (w.foldl newline p) := by
  induction w generalizing p with
  | nil => exact .refl p
  | cons c w ih => exact (writes_newline p c).trans (ih (p.newline c))

/-- A character is written, and the pen stands behind it within a line. -/
structure Ended (p : Pen) : Prop where
  afterBlank_eq : p.afterBlank = false
  atIndent_eq : p.atIndent = false

/-- The blank that is written before what needs one. -/
def lead (p : Pen) : List Char := if p.afterBlank then [] else [' ']

theorem writes_lead (p : Pen) : p.Writes p.lead (if p.afterBlank then p else p.put [' ']) := by
  unfold lead
  split
  · exact .refl p
  · exact writes_put p [' ']

theorem writes_indicator (p : Pen) (cs : List Char) (leavesBlank counts : Bool) :
    p.Writes (p.lead ++ cs) (p.indicator cs true leavesBlank counts) := by
  unfold lead
  refine ⟨?_, fun _ => rfl⟩
  unfold indicator
  cases p.afterBlank <;> rfl

/-- An indicator that needs no blank. -/
theorem writes_mark (p : Pen) (cs : List Char) (leavesBlank counts : Bool) :
    p.Writes cs (p.indicator cs false leavesBlank counts) := by
  refine ⟨?_, fun _ => rfl⟩
  unfold indicator
  rw [Bool.not_false, Bool.or_true]
  rfl

/-! ## Indentation -/

/-- The pen cannot go to a column on its line. -/
def needsLine (p : Pen) (indent : Nat) : Bool :=
  !p.atIndent || indent < p.column || (p.column == indent && !p.afterBlank)

theorem indentTo_of_needsLine (h : p.needsLine indent = true) :
    p.indentTo indent = { p with
      reversed := ('\n' :: List.replicate indent ' ').reverse ++ p.reversed
      column := indent
      afterBlank := true
      atIndent := true } := by
  unfold indentTo
  rw [needsLine] at h
  rw [if_pos h]
  cases indent with
  | zero => rfl
  | succ indent => simp [newline, put]

theorem indentTo_of_not_needsLine (h : p.needsLine indent = false) :
    p.indentTo indent = { p with
      reversed := (List.replicate (indent - p.column) ' ').reverse ++ p.reversed
      column := indent
      afterBlank := true } := by
  unfold indentTo
  rw [needsLine] at h
  rw [h, if_neg Bool.false_ne_true]
  obtain ⟨reversed, column, afterBlank, atIndent, isOpen⟩ := p
  simp only [Bool.or_eq_false_iff, decide_eq_false_iff_not, Bool.and_eq_false_imp, beq_iff_eq,
    Bool.not_eq_eq_eq_not, Bool.not_false] at h
  obtain ⟨⟨-, hcolumn⟩, hblank⟩ := h
  dsimp only at hcolumn hblank ⊢
  by_cases hbefore : column < indent
  · rw [if_pos hbefore]
    simp only [put, List.length_replicate, Pen.mk.injEq, true_and, and_true]
    omega
  · obtain rfl : column = indent := by omega
    rw [if_neg hbefore, hblank rfl, Nat.sub_self]
    rfl

/-- Behind something on the line the indentation is that of another line. -/
theorem writes_indentTo (h : p.needsLine indent = true) :
    p.Writes ('\n' :: List.replicate indent ' ') (p.indentTo indent) := by
  rw [indentTo_of_needsLine h]
  exact ⟨rfl, id⟩

theorem isOpen_indentTo (p : Pen) (indent : Nat) : (p.indentTo indent).isOpen = p.isOpen := by
  cases h : p.needsLine indent with
  | true => rw [indentTo_of_needsLine h]
  | false => rw [indentTo_of_not_needsLine h]

theorem needsLine_of_ended (h : p.Ended) (indent : Nat) : p.needsLine indent = true := by
  rw [needsLine, h.atIndent_eq]
  rfl

/-! ## Runs -/

/-- Runs of characters of one kind each. Of two that follow each other one is a word. -/
inductive Alternates : List (RunKind × List Char) → Prop
  | nil : Alternates []
  | cons {kind : RunKind} {run : List Char} {rest : List (RunKind × List Char)} (hne : run ≠ [])
      (hkind : ∀ c ∈ run, runKind c = kind)
      (hnext : ∀ r ∈ rest.head?, kind = .word ↔ r.1 ≠ .word) (hrest : Alternates rest) :
      Alternates ((kind, run) :: rest)

theorem flatMap_runs (cs : List Char) : (runs cs).flatMap Prod.snd = cs := by
  induction cs with
  | nil => rfl
  | cons c cs ih =>
    rw [runs]
    split
    · next h =>
      rw [h] at ih
      split
      · rw [← ih]
        rfl
      · rw [List.flatMap_cons, ih]
        rfl
    · next h =>
      rw [h] at ih
      rw [List.flatMap_cons, ← ih]
      rfl

/-- The first run is of the kind of the first character. -/
theorem kind_of_head_runs : ∀ r ∈ (runs (c :: cs)).head?, r.1 = runKind c := by
  rw [runs]
  intro r hr
  split at hr
  · split at hr
    · next hkind =>
      cases hr
      exact hkind
    · cases hr
      rfl
  · cases hr
    rfl

theorem runKind_eq_spaces : runKind c = .spaces ↔ c = ' ' := by
  unfold runKind
  by_cases hspace : (c == ' ') = true
  · rw [if_pos hspace]
    simpa using hspace
  · rw [if_neg hspace]
    simp only [beq_iff_eq] at hspace
    split <;> simp [hspace]

theorem runKind_eq_breaks : runKind c = .breaks ↔ isBreak c = true := by
  unfold runKind
  by_cases hspace : (c == ' ') = true
  · obtain rfl : c = ' ' := by simpa using hspace
    decide
  · rw [if_neg hspace]
    split
    · next h => simp [h]
    · next h => simp [h]

theorem runKind_eq_word : runKind c = .word ↔ c ≠ ' ' ∧ isBreak c = false := by
  rw [← Bool.not_eq_true, ← runKind_eq_breaks, ne_eq, ← runKind_eq_spaces]
  cases runKind c <;> decide

/-- Of two kinds one is that of words unless spaces meet line breaks. -/
theorem word_iff_of_ne {k k' : RunKind} (h : k ≠ k') (hspace : ¬ (k = .spaces ∧ k' = .breaks))
    (hbreak : ¬ (k = .breaks ∧ k' = .spaces)) : k = .word ↔ k' ≠ .word := by
  revert h hspace hbreak
  cases k <;> cases k' <;> decide

/-- Characters of two kinds do not meet in the rest of a text either, nor at its begin. -/
theorem follows_cons {a b : Char → Bool} (h : Traits.follows a b (c :: cs) = false) :
    Traits.follows a b cs = false ∧ ∀ d ∈ cs.head?, (a c && b d) = false := by
  cases cs with
  | nil => exact ⟨rfl, by simp⟩
  | cons d cs =>
    rw [Traits.follows, Bool.or_eq_false_iff] at h
    exact ⟨h.2, by simpa using h.1⟩

/-- Of two kinds that meet one is that of words. -/
theorem word_iff_of_meets {d : Char} (hne : runKind c ≠ runKind d)
    (hspace : (Traits.isSpace c && isBreak d) = false)
    (hbreak : (isBreak c && Traits.isSpace d) = false) :
    runKind c = .word ↔ runKind d ≠ .word := by
  refine word_iff_of_ne hne ?_ ?_
  · rintro ⟨hc, hd⟩
    rw [runKind_eq_spaces.1 hc, runKind_eq_breaks.1 hd] at hspace
    cases hspace
  · rintro ⟨hc, hd⟩
    rw [runKind_eq_breaks.1 hc, runKind_eq_spaces.1 hd] at hbreak
    cases hbreak

theorem alternates_runs (h : Traits.follows Traits.isSpace isBreak cs = false)
    (h' : Traits.follows isBreak Traits.isSpace cs = false) : Alternates (runs cs) := by
  induction cs with
  | nil => exact .nil
  | cons c cs ih =>
    obtain ⟨hspaces, hspace⟩ := follows_cons h
    obtain ⟨hbreaks, hbreak⟩ := follows_cons h'
    have hflat := flatMap_runs cs
    have hruns := ih hspaces hbreaks
    rw [runs]
    split
    · next kind run rest hcs =>
      rw [hcs] at hflat hruns
      obtain ⟨hne, hkind, hnext, hrest⟩ :
          run ≠ [] ∧ (∀ d ∈ run, runKind d = kind) ∧
            (∀ r ∈ rest.head?, kind = .word ↔ r.1 ≠ .word) ∧ Alternates rest := by
        cases hruns with
        | cons hne hkind hnext hrest => exact ⟨hne, hkind, hnext, hrest⟩
      split
      · next hsame =>
        refine .cons (List.cons_ne_nil _ _) ?_ hnext hrest
        exact List.forall_mem_cons.2 ⟨hsame.symm, hkind⟩
      · next hother =>
        refine .cons (List.cons_ne_nil _ _) ?_ ?_ (.cons hne hkind hnext hrest)
        · exact List.forall_mem_cons.2 ⟨rfl, List.forall_mem_nil _⟩
        -- Of the two runs that meet here one is a word, since spaces and breaks do not meet.
        obtain ⟨d, ds, rfl⟩ := List.exists_cons_of_ne_nil hne
        have hhead : d ∈ cs.head? := by
          rw [← hflat]
          rfl
        obtain rfl : runKind d = kind := hkind d List.mem_cons_self
        intro r hr
        cases hr
        exact word_iff_of_meets (Ne.symm hother) (hspace d hhead) (hbreak d hhead)
    · refine .cons (List.cons_ne_nil _ _) ?_ (by simp) .nil
      exact List.forall_mem_cons.2 ⟨rfl, List.forall_mem_nil _⟩

/-- Where no line breaks spaces meet none. -/
theorem follows_of_noBreak (h : ∀ c ∈ cs, isBreak c = false) :
    Traits.follows Traits.isSpace isBreak cs = false ∧
      Traits.follows isBreak Traits.isSpace cs = false := by
  induction cs with
  | nil => exact ⟨rfl, rfl⟩
  | cons c cs ih =>
    cases cs with
    | nil => exact ⟨rfl, rfl⟩
    | cons d cs =>
      obtain ⟨hc, hothers⟩ := List.forall_mem_cons.1 h
      obtain ⟨hspace, hbreak⟩ := ih hothers
      rw [Traits.follows, Traits.follows, hspace, hbreak, hc, hothers d List.mem_cons_self]
      simp

end Stencil.Yaml.Pen
