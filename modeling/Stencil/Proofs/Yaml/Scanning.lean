import Mathlib.Logic.Relation
import Stencil.Yaml.Token.Stream

/-!
# From one token to the next

Reading goes from one *settled* state to another: a state in which the next token begins at once,
what ends before it has been left, and nothing that lapses before it is kept. One step fetches a
token and settles the state behind it (`Scan.Next`), and a way of such steps to the end of a text
has all its tokens (`TokenStream.ofText_of_leads`), so that the fuel of the reading is dealt with
here once.

Settling goes behind the filler, which in the texts considered here is made of spaces and line feeds
(`isFiller`), up to what is *solid* (`isSolid`).
-/

namespace Stencil.Yaml

/-! ## Places -/

namespace Cursor

variable {p : Cursor} {c : Char} {w v cs : List Char}

theorem advance_add (p : Cursor) (m n : Nat) : p.advance (m + n) = (p.advance m).advance n := by
  induction m generalizing p with
  | zero => rw [Nat.zero_add]; rfl
  | succ m ih => rw [Nat.succ_add]; exact ih p.next

theorem advanceTo_eq (h : p.rest = w ++ cs) : p.advanceTo cs = p.advance w.length := by
  rw [advanceTo, h, List.length_append, Nat.add_sub_cancel]

/-- A character that moves the place one column on. -/
def isInline (c : Char) : Bool := !isBreak c && c != byteOrderMark

theorem isInline_of_ascii (h : 0x20 ≤ c.toNat ∧ c.toNat ≤ 0x7e) : isInline c = true := by
  have hmark : c ≠ byteOrderMark := by
    rintro rfl
    exact absurd h.2 (by decide)
  simp [isInline, isBreak_of_ascii h, hmark]

theorem next_of_isBreak (h : p.rest = c :: cs) (hc : isBreak c = true) :
    p.next = ⟨cs, p.index + 1, p.line + 1, 0⟩ := by
  unfold next
  rw [h]
  exact if_pos hc

theorem next_of_isInline (h : p.rest = c :: cs) (hc : isInline c = true) :
    p.next = ⟨cs, p.index + 1, p.line, p.column + 1⟩ := by
  obtain ⟨hbreak, hmark⟩ : isBreak c = false ∧ c ≠ byteOrderMark := by simpa [isInline] using hc
  unfold next
  rw [h]
  simp [hbreak, hmark]

/-- Along a line lines are not counted, and columns are. -/
theorem advance_inline (h : p.rest = w ++ cs) (hw : ∀ c ∈ w, isInline c = true) :
    p.advance w.length = ⟨cs, p.index + w.length, p.line, p.column + w.length⟩ := by
  induction w generalizing p with
  | nil =>
    rw [List.nil_append] at h
    rw [← h]
    rfl
  | cons c w ih =>
    obtain ⟨hc, hw⟩ := List.forall_mem_cons.1 hw
    have hnext := next_of_isInline h hc
    rw [List.length_cons, advance, hnext, ih rfl hw, Nat.add_assoc, Nat.add_assoc, Nat.add_comm 1]

theorem line_le_advance (p : Cursor) (n : Nat) : p.line ≤ (p.advance n).line := by
  induction n generalizing p with
  | zero => exact Nat.le_refl _
  | succ n ih =>
    have hnext : p.line ≤ p.next.line := by
      unfold next
      split
      · exact Nat.le_refl _
      · split
        · exact Nat.le_succ _
        · split <;> exact Nat.le_refl _
    exact Nat.le_trans hnext (ih p.next)

/-- Behind a line break another line stands. -/
theorem line_lt_advance (h : p.rest = w ++ c :: cs) (hc : isBreak c = true) (n : Nat) :
    p.line < (p.advance (w.length + 1 + n)).line := by
  have hbreak : (p.advance w.length).rest = c :: cs := by simp [rest_advance, h]
  rw [advance_add, advance_add]
  refine Nat.lt_of_lt_of_le ?_ (line_le_advance _ n)
  show p.line < (p.advance w.length).next.line
  rw [next_of_isBreak hbreak hc]
  exact Nat.lt_succ_of_le (line_le_advance p _)

/-- Behind a line break columns are counted anew. -/
theorem column_advance (h : p.rest = w ++ c :: (v ++ cs)) (hc : isBreak c = true)
    (hv : ∀ c ∈ v, isInline c = true) : (p.advance (w.length + 1 + v.length)).column = v.length := by
  have hbreak : (p.advance w.length).rest = c :: (v ++ cs) := by simp [rest_advance, h]
  have hline := next_of_isBreak hbreak hc
  rw [advance_add, advance_add]
  show ((p.advance w.length).next.advance v.length).column = _
  rw [hline, advance_inline rfl hv]
  exact Nat.zero_add _

end Cursor

/-! ## Filler -/

/-- A space or a line feed. -/
def isFiller (c : Char) : Bool := c == ' ' || c == '\n'

/-- No filler comes before the next token. -/
def isSolid : List Char → Bool
  | [] => true
  | c :: _ => !isFiller c && !isBreak c && c != '#' && c != Cursor.byteOrderMark

namespace Scan

variable {s t u : Scan} {v cs : List Char}

theorem filler_append (hv : ∀ c ∈ v, isFiller c = true) (crossed : Bool) (cs : List Char) :
    filler false crossed (v ++ cs) = filler false (crossed || v.contains '\n') cs := by
  induction v generalizing crossed with
  | nil => simp
  | cons c v ih =>
    obtain ⟨hc, hothers⟩ := List.forall_mem_cons.1 hv
    rw [List.cons_append, filler]
    by_cases hfeed : c = '\n'
    · rw [hfeed, if_pos (by decide), ih hothers]
      simp
    · have hspace : c = ' ' := by simpa [isFiller, hfeed] using hc
      rw [hspace, if_neg (by decide), if_pos (by decide), ih hothers]
      simp

theorem filler_of_isSolid (h : isSolid cs = true) (crossed : Bool) :
    filler false crossed cs = (cs, crossed) := by
  cases cs with
  | nil => rfl
  | cons c cs =>
    simp only [isSolid, isFiller, Bool.and_eq_true, Bool.not_eq_true', Bool.or_eq_false_iff,
      bne_iff_ne, beq_eq_false_iff_ne] at h
    obtain ⟨⟨⟨⟨hspace, -⟩, hbreak⟩, hhash⟩, -⟩ := h
    simp [filler, hbreak, hspace, hhash]

/-- Going to the next token passes the filler. -/
theorem toToken_eq (hrest : s.rest = v ++ cs) (hv : ∀ c ∈ v, isFiller c = true)
    (hcs : isSolid cs = true) :
    s.toToken = { s with
      cursor := s.cursor.advance v.length
      allowsKey := s.allowsKey || (v.contains '\n' && !s.inFlow) } := by
  have hmark : (s.rest.head? == some Cursor.byteOrderMark) = false := by
    rw [hrest]
    cases v with
    | nil =>
      cases cs with
      | nil => rfl
      | cons c cs =>
        simp only [isSolid, Bool.and_eq_true, bne_iff_ne] at hcs
        simpa using hcs.2
    | cons c v =>
      have hc := hv c List.mem_cons_self
      simp only [isFiller, Bool.or_eq_true, beq_iff_eq] at hc
      rcases hc with rfl | rfl <;> rfl
  have hskip : s.skipTo cs = { s with cursor := s.cursor.advance v.length } := by
    rw [skipTo, Cursor.advanceTo_eq hrest]
  have hfiller : filler false false s.rest = (cs, v.contains '\n') := by
    rw [hrest, filler_append hv, filler_of_isSolid hcs, Bool.false_or]
  unfold toToken
  rw [hmark, Bool.and_false, if_neg Bool.false_ne_true]
  dsimp only
  rw [hfiller, hskip]
  dsimp only
  by_cases hcrossed : (v.contains '\n' && !s.inFlow) = true
  · rw [hcrossed, Bool.or_true]
    exact if_pos hcrossed
  · rw [Bool.not_eq_true] at hcrossed
    rw [hcrossed, Bool.or_false]
    exact if_neg (by simpa [inFlow] using hcrossed)

/-- Behind some filler, with the candidates that do not lapse. -/
def behind (v : List Char) (s : Scan) : Scan :=
  let cursor := s.cursor.advance v.length
  { s with
    cursor
    candidate? := keep cursor s.candidate?
    suspended := s.suspended.map (keep cursor)
    allowsKey := s.allowsKey || (v.contains '\n' && !s.inFlow) }

/-- Some candidate, at the present level of brackets or around it. -/
def HasCandidate (s : Scan) (k : Candidate) : Prop := s.candidate? = some k ∨ some k ∈ s.suspended

theorem dropLapsed_eq
    (h : ∀ k, s.HasCandidate k → k.isRequired = true → isLapsed s.cursor k = false) :
    s.dropLapsed = .ok { s with
      candidate? := keep s.cursor s.candidate?
      suspended := s.suspended.map (keep s.cursor) } := by
  unfold dropLapsed
  refine if_neg ?_
  rw [List.any_eq_true]
  rintro ⟨k, hk, hlapsed⟩
  rw [Bool.and_eq_true] at hlapsed
  have hhas : s.HasCandidate k := by
    rcases List.mem_append.1 hk with hk | hk
    · exact .inl (Option.mem_toList.1 hk)
    · obtain ⟨k?, hmem, rfl⟩ := List.mem_filterMap.1 hk
      exact .inr hmem
  rw [h k hhas hlapsed.1] at hlapsed
  exact absurd hlapsed.2 Bool.false_ne_true

theorem rest_closeToColumn (s : Scan) : s.closeToColumn.rest = s.rest := by
  unfold closeToColumn
  split <;> rfl

/-- Settling passes the filler and leaves the blocks that end behind it. -/
theorem settled_eq (hrest : s.rest = v ++ cs) (hv : ∀ c ∈ v, isFiller c = true)
    (hcs : isSolid cs = true) (h : ∀ k, s.HasCandidate k → k.isRequired = true →
      isLapsed (s.cursor.advance v.length) k = false) :
    settled s = .ok (s.behind v).closeToColumn := by
  unfold settled
  rw [toToken_eq hrest hv hcs, dropLapsed_eq h]
  rfl

theorem rest_behind (hrest : s.rest = v ++ cs) : (s.behind v).rest = cs := by
  show (s.cursor.advance v.length).rest = cs
  rw [Cursor.rest_advance]
  show s.rest.drop v.length = cs
  rw [hrest, List.drop_left]

/-! ## Steps -/

/-- One token, and what is left before the next. -/
def Next (t u : Scan) : Prop :=
  ∃ c cs s, t.rest = c :: cs ∧ fetch c cs t = .ok s ∧ settled s = .ok u ∧
    u.rest.length ≤ cs.length

/-- A way from one token to another. -/
abbrev Leads : Scan → Scan → Prop := Relation.ReflTransGen Next

theorem run_of_leads (h : Leads t u) (hs : settled s = .ok t) (fuel : Nat)
    (hfuel : t.rest.length < fuel) :
    ∃ fuel' s', settled s' = .ok u ∧ u.rest.length < fuel' ∧ run fuel s = run fuel' s' := by
  induction h using Relation.ReflTransGen.head_induction_on generalizing s fuel with
  | refl => exact ⟨fuel, s, hs, hfuel, rfl⟩
  | head hstep _ ih =>
    obtain ⟨c, cs, s', hrest, hfetch, hsettled, hshorter⟩ := hstep
    rw [hrest, List.length_cons] at hfuel
    obtain ⟨fuel, rfl⟩ : ∃ f, fuel = f + 1 := ⟨fuel - 1, by omega⟩
    obtain ⟨fuel', s'', hs'', hfuel', hrun⟩ := ih hsettled fuel (by omega)
    refine ⟨fuel', s'', hs'', hfuel', ?_⟩
    rw [← hrun, run, hs]
    dsimp only
    rw [hrest]
    dsimp only
    rw [hfetch]

end Scan

/-- A way to the end of a text has all its tokens. -/
theorem TokenStream.ofText_of_leads {cs : List Char} {t u z : Scan}
    (hstart : Scan.settled { cursor := { rest := cs } } = .ok t) (hrest : t.rest = cs)
    (h : Scan.Leads t u) (hu : u.rest = []) (hz : u.finish = .ok z) :
    ofText cs = ⟨z.reversed.reverse, .malformed⟩ := by
  obtain ⟨fuel, s, hs, hfuel, hrun⟩ :=
    Scan.run_of_leads h hstart (cs.length + 1) (by rw [hrest]; exact Nat.lt_succ_self _)
  obtain ⟨fuel, rfl⟩ : ∃ f, fuel = f + 1 := ⟨fuel - 1, by omega⟩
  rw [ofText, hrun, Scan.run, hs]
  dsimp only
  rw [hu]
  dsimp only
  rw [hz]

end Stencil.Yaml
