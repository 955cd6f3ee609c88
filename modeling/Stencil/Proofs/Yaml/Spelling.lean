import Stencil.Proofs.Yaml.Fetching
import Stencil.Proofs.Yaml.Kept

/-!
# Scalars in blocks

Between the nodes of a block no brackets are open and no candidate is kept (`Scan.InBlock`). What
ends a node there is a line break, the indentation of another line, and something on it that is no
part of the node (`freshLine`, `Scan.Resumes`); behind that the state is `Scan.past`.

Some characters *spell* a scalar (`Spells`) if one step reads it up to another line, or as a key up
to the colon behind it. Whether the scalar is plain or quoted makes no difference any more then.
-/

namespace Stencil.Yaml

/-! ## Lines -/

variable {c : Char} {cs next rest text v w : List Char} {j n : Nat}

/-- A line break, the indentation of another line, and what stands on it. -/
def freshLine (j : Nat) (next : List Char) : List Char := '\n' :: (List.replicate j ' ' ++ next)

theorem length_freshLine (j : Nat) (next : List Char) :
    (freshLine j next).length = 1 + j + next.length := by
  simp [freshLine]
  omega

theorem isFiller_freshLine (j : Nat) : ∀ c ∈ freshLine j [], isFiller c = true := by
  intro c hc
  simp only [freshLine, List.append_nil, List.mem_cons, List.mem_replicate] at hc
  rcases hc with rfl | ⟨-, rfl⟩ <;> rfl

theorem freshLine_eq_append (j : Nat) (next : List Char) : freshLine j next = freshLine j [] ++ next := by
  simp [freshLine]

theorem isKept_freshLine (j : Nat) (h : ∀ c ∈ next, isKept c = true) :
    ∀ c ∈ freshLine j next, isKept c = true := by
  intro c hc
  simp only [freshLine, List.mem_cons, List.mem_append, List.mem_replicate] at hc
  rcases hc with rfl | ⟨-, rfl⟩ | hc
  · rfl
  · rfl
  · exact h c hc

/-- No line of another document begins on an indented line. -/
theorem beginsWithMarker_indented (hj : 0 < j ∨ beginsWithMarker next = false) :
    beginsWithMarker (List.replicate j ' ' ++ next) = false := by
  cases j with
  | zero => simpa using hj
  | succ j => exact beginsWithMarker_cons (by decide) (by decide) _

namespace Scan

variable {s t : Scan} {ts us : List Token} {isPlain allowsKey : Bool}

/-! ## States between nodes -/

/-- No brackets are open, and no key may have begun. -/
structure InBlock (s : Scan) : Prop where
  suspended_eq : s.suspended = []
  candidate_eq : s.candidate? = none

theorem InBlock.inFlow_eq (h : s.InBlock) : s.inFlow = false := by
  rw [inFlow, h.suspended_eq]
  rfl

theorem InBlock.isIdle (h : s.InBlock) : s.IsIdle := isIdle_of_none h.candidate_eq

theorem InBlock.suspended_noted (h : s.InBlock) : s.noted.suspended = [] := by
  rw [Scan.suspended_noted, h.suspended_eq]

/-- The candidate that may begin here. -/
theorem InBlock.candidate_noted (h : s.InBlock) :
    s.noted.candidate? =
      if s.allowsKey then some ⟨s.reversed.length, s.margin == s.column + 1, s.cursor⟩ else none := by
  unfold noted
  split
  · rw [h.inFlow_eq]
    rfl
  · exact h.candidate_eq

/-- A place in a block where any node may stand, as no key must begin there. -/
structure Stands (s : Scan) : Prop extends s.InBlock where
  margin_le : s.allowsKey = true → s.margin ≤ s.column

/-- A candidate that is kept here need not be a key. -/
theorem Stands.of_candidate_noted (h : s.Stands) {k : Candidate} (hk : s.noted.candidate? = some k) :
    k.isRequired = false ∧ k.start = s.cursor := by
  rw [h.candidate_noted] at hk
  split at hk
  · next hallows =>
    cases hk
    have hmargin := h.margin_le hallows
    refine ⟨?_, rfl⟩
    rw [beq_eq_false_iff_ne]
    omega
  · cases hk

/-- What stands on the line behind a node is no part of it, nor of the block around it unless it is
indented like that. -/
structure Resumes (margin j : Nat) (next : List Char) : Prop where
  solid : isSolid next = true
  noMarker : beginsWithMarker next = false
  isBefore : j < margin ∨ j = 0 ∧ next = []

/-- Behind some tokens and the line break after them. -/
def past (n : Nat) (ts : List Token) (s : Scan) : Scan :=
  { s with
    cursor := s.cursor.advance n
    reversed := ts.reverse ++ s.reversed
    candidate? := none
    allowsKey := true }

theorem past_past (m n : Nat) (ts us : List Token) (s : Scan) :
    (s.past m ts).past n us = s.past (m + n) (ts ++ us) := by
  simp [past, Cursor.advance_add]

theorem InBlock.past (h : s.InBlock) (n : Nat) (ts : List Token) : (s.past n ts).InBlock :=
  ⟨h.suspended_eq, rfl⟩

theorem rest_past (h : s.rest = w ++ rest) (hn : n = w.length) : (s.past n ts).rest = rest := by
  show (s.skip n).rest = rest
  rw [rest_skip, h, hn, List.drop_left]

theorem rest_past_freshLine (h : s.rest = w ++ freshLine j next) (ts : List Token) :
    (s.past (w.length + 1 + j) ts).rest = next := by
  refine rest_past (w := w ++ freshLine j []) ?_ ?_
  · rw [h, freshLine_eq_append, List.append_assoc]
  · rw [List.length_append, length_freshLine, List.length_nil]
    omega

/-- No block is left at its own column or behind it. -/
theorem closeToColumn_eq_self (h : s.margin ≤ s.column + 1) : s.closeToColumn = s := by
  have hclose : closeBlocks s.column s.margin s.reversed s.outer = (s.margin, s.outer, s.reversed) := by
    rcases s.outer with _ | ⟨m, outer⟩
    · rfl
    · rw [closeBlocks, if_neg (by omega)]
  unfold closeToColumn
  rw [hclose]
  split <;> rfl

/-! ## Scalars -/

theorem rest_behindScalar (h : t.rest = w ++ rest) (hn : n = w.length) :
    (t.behindScalar n text isPlain allowsKey).rest = rest := by
  show (t.noted.skip n).rest = rest
  rw [rest_skip, rest_noted, h, hn, List.drop_left]

/-- A candidate that lapses behind the filler, and need not be a key. -/
def Lapses (s : Scan) (n : Nat) : Prop :=
  ∀ k, s.candidate? = some k → k.isRequired = false ∧ k.start.line < (s.cursor.advance n).line

/-- Settling on another line leaves no candidate. -/
theorem settled_past (hrest : s.rest = v ++ next) (hv : ∀ c ∈ v, isFiller c = true)
    (hnext : isSolid next = true) (hsuspended : s.suspended = []) (hcandidate : s.Lapses v.length)
    (hkey : (s.allowsKey || v.contains '\n') = true) :
    settled s = .ok (s.past v.length []).closeToColumn := by
  have hnone : keep (s.cursor.advance v.length) s.candidate? = none := by
    rcases hk : s.candidate? with _ | k
    · rfl
    · have hlapsed : isLapsed (s.cursor.advance v.length) k = true := by
        rw [isLapsed, Bool.or_eq_true]
        exact .inl (bne_iff_ne.2 (Nat.ne_of_lt (hcandidate k hk).2))
      simp [keep, hlapsed]
  have hbehind : s.behind v = s.past v.length [] := by
    have hflow : s.inFlow = false := by
      rw [inFlow, hsuspended]
      rfl
    unfold behind past
    dsimp only
    rw [hnone, hsuspended, hflow, Bool.not_false, Bool.and_true, hkey]
    rfl
  rw [settled_eq hrest hv hnext, hbehind]
  intro k hk hrequired
  rcases hk with hk | hk
  · rw [(hcandidate k hk).1] at hrequired
    cases hrequired
  · rw [hsuspended] at hk
    cases hk

/-- Behind a scalar another line is gone to, with the scalar or after it. -/
theorem next_of_freshLine (ht : t.Stands) (hw : w = c :: cs) {u : List Char}
    (hline : freshLine j next = u ++ (v ++ next))
    (hfetch : fetch c (cs ++ freshLine j next) t =
      .ok (t.behindScalar (w.length + u.length) text isPlain allowsKey))
    (hrest : t.rest = w ++ freshLine j next) (hnext : isSolid next = true)
    (hv : ∀ c ∈ v, isFiller c = true) (hkey : (allowsKey || v.contains '\n') = true) :
    Next t (t.past (w.length + 1 + j) [.scalar text isPlain]).closeToColumn := by
  let s := t.behindScalar (w.length + u.length) text isPlain allowsKey
  have hleft : s.rest = v ++ next := by
    refine rest_behindScalar (w := w ++ u) ?_ (List.length_append).symm
    rw [hrest, hline, List.append_assoc]
  have hcursor : s.cursor.advance v.length = t.cursor.advance (w.length + 1 + j) := by
    have hlength := congrArg List.length hline
    rw [length_freshLine, List.length_append, List.length_append] at hlength
    show (t.noted.cursor.advance (w.length + u.length)).advance v.length = _
    rw [cursor_noted, ← Cursor.advance_add]
    congr 1
    omega
  have hlapses : s.Lapses v.length := by
    intro k hk
    obtain ⟨hrequired, hstart⟩ := ht.of_candidate_noted hk
    rw [hcursor, hstart]
    exact ⟨hrequired, Cursor.line_lt_advance hrest rfl j⟩
  have hpast : s.past v.length [] = t.past (w.length + 1 + j) [.scalar text isPlain] := by
    unfold past
    rw [hcursor]
    simp [s, behindScalar, emit, skip, allowing]
  have hsettled := settled_past hleft hv hnext ht.suspended_noted hlapses hkey
  refine ⟨c, cs ++ freshLine j next, s, ?_, hfetch, hpast ▸ hsettled, ?_⟩
  · rw [hrest, hw]
    rfl
  · rw [rest_closeToColumn, rest_past_freshLine hrest, List.length_append, length_freshLine]
    omega

/-- Characters of one line keep the candidate of the node that they are. -/
theorem keep_behindScalar (ht : t.InBlock) (hrest : t.rest = w ++ rest)
    (hinline : ∀ c ∈ w, Cursor.isInline c = true) (hlength : w.length ≤ keyLimit) {k : Candidate}
    (hk : t.noted.candidate? = some k) : keep (t.cursor.advance w.length) (some k) = some k := by
  rw [ht.candidate_noted] at hk
  split at hk
  · cases hk
    exact keep_inline hrest hinline hlength
  · cases hk

/-- A state between nodes is settled as it is if its candidate is kept and no block is left. -/
theorem settled_eq_self (hrest : isSolid s.rest = true) (hsuspended : s.suspended = [])
    (hkeep : ∀ k, s.candidate? = some k → keep s.cursor (some k) = some k)
    (hcolumn : s.margin ≤ s.column + 1) : settled s = .ok s := by
  have hcandidate : keep s.cursor s.candidate? = s.candidate? := by
    rcases hk : s.candidate? with _ | k
    · rfl
    · exact hkeep k hk
  have hbehind : s.behind [] = s := by
    have hallows : (s.allowsKey || ([] : List Char).contains '\n' && !s.inFlow) = s.allowsKey := by simp
    unfold behind
    dsimp only [List.length_nil, Cursor.advance]
    rw [hcandidate, hallows, hsuspended]
    show ({ s with suspended := [] } : Scan) = s
    rw [← hsuspended]
  rw [settled_eq (List.nil_append s.rest).symm (List.forall_mem_nil _) hrest, hbehind,
    closeToColumn_eq_self hcolumn]
  intro k hk _
  rcases hk with hk | hk
  · have hkept := hkeep k hk
    cases hlapsed : isLapsed s.cursor k with
    | false => exact hlapsed
    | true => simp [keep, hlapsed] at hkept
  · rw [hsuspended] at hk
    cases hk

/-- Behind a scalar on its line comes a colon, so that it may be a key. -/
theorem next_of_colon (ht : t.InBlock) (hmargin : t.margin ≤ t.column + 1) (hw : w = c :: cs)
    (hrest : t.rest = w ++ ':' :: rest)
    (hfetch : fetch c (cs ++ ':' :: rest) t = .ok (t.behindScalar w.length text isPlain false))
    (hinline : ∀ c ∈ w, Cursor.isInline c = true) (hlength : w.length ≤ keyLimit) :
    Next t (t.behindScalar w.length text isPlain false) := by
  let s := t.behindScalar w.length text isPlain false
  have hleft : s.rest = ':' :: rest := rest_behindScalar hrest rfl
  have hcursor : s.cursor = t.cursor.advance w.length :=
    congrArg (Cursor.advance · w.length) (cursor_noted t)
  have hkeep : ∀ k, s.candidate? = some k → keep s.cursor (some k) = some k := by
    intro k hk
    rw [hcursor]
    exact keep_behindScalar ht hrest hinline hlength hk
  have hcolumn : s.column = t.column + w.length := by
    show s.cursor.column = _
    rw [hcursor, Cursor.advance_inline hrest hinline]
    rfl
  have hbelow : s.margin ≤ s.column + 1 := by
    rw [show s.margin = t.margin from margin_noted t, hcolumn]
    omega
  have hsettled : settled s = .ok s :=
    settled_eq_self (by rw [hleft]; rfl) ht.suspended_noted hkeep hbelow
  refine ⟨c, cs ++ ':' :: rest, s, ?_, hfetch, hsettled, ?_⟩
  · rw [hrest, hw]
    rfl
  · rw [hleft]
    simp

end Scan

/-! ## Spelling -/

open Scan

/-- Some characters are read as a scalar whose further lines are indented. -/
structure Spells (indent : Nat) (w text : List Char) (isPlain : Bool) : Prop where
  kept : ∀ c ∈ w, isKept c = true
  solid : ∀ rest, isSolid (w ++ rest) = true
  noMarker : ∀ c rest, c ≠ '-' → c ≠ '.' → beginsWithMarker (w ++ c :: rest) = false
  /-- As a node, up to the next line. -/
  line : ∀ {t : Scan} {j : Nat} {next : List Char}, t.Stands → t.margin ≤ indent →
    t.rest = w ++ freshLine j next → Resumes t.margin j next →
    Next t (t.past (w.length + 1 + j) [.scalar text isPlain]).closeToColumn
  /-- As a document of its own, up to the end mark, which only a plain one needs. -/
  marker : isPlain = true → ∀ {t : Scan} {rest : List Char}, t.Stands → t.margin ≤ indent →
    beginsWithMarker rest = true → isSolid rest = true → t.rest = w ++ freshLine 0 rest →
    Next t (t.past (w.length + 1) [.scalar text isPlain]).closeToColumn
  /-- As a key, up to the colon. -/
  colon : (∀ c ∈ w, Cursor.isInline c = true) → w.length ≤ keyLimit →
    ∀ {t : Scan} {rest : List Char}, t.InBlock → t.margin ≤ t.column + 1 → t.margin ≤ indent →
    endsHere rest = true → t.rest = w ++ ':' :: rest → Next t (t.behindScalar w.length text isPlain false)

/-- Between quotes it does not matter what comes behind, but another quote. -/
theorem spells_quoted {indent : Nat} {text w : List Char} (isDouble : Bool)
    (hkept : ∀ c ∈ w, isKept c = true)
    (hscan : ∀ rest, rest.head? ≠ some '\x27' → Quoted.scan isDouble (w ++ rest) = .ok (text, rest)) :
    Spells indent ((if isDouble then '\x22' else '\x27') :: w) text false := by
  have hfetch : ∀ {t : Scan} {tail : List Char}, t.InBlock → tail.head? ≠ some '\x27' →
      t.rest = (if isDouble then '\x22' else '\x27') :: w ++ tail →
      fetch (if isDouble then '\x22' else '\x27') (w ++ tail) t =
        .ok (t.behindScalar (w.length + 1) text false false) := by
    intro t tail ht htail hrest
    have hquoted := quotedScalar_eq ht.isIdle hrest (hscan tail htail)
    cases isDouble with
    | true => exact (fetch_double _ t).trans hquoted
    | false => exact (fetch_single _ t).trans hquoted
  refine ⟨List.forall_mem_cons.2 ⟨?_, hkept⟩, ?_, ?_, ?_, nofun, ?_⟩
  · cases isDouble <;> decide
  · intro rest
    cases isDouble <;> rfl
  · intro c rest _ _
    cases isDouble <;> exact beginsWithMarker_cons (by decide) (by decide) _
  · intro t j next ht _ hrest hnext
    have hline : freshLine j next = [] ++ (freshLine j [] ++ next) := freshLine_eq_append j next
    have hstep := hfetch ht.toInBlock (by simp [freshLine]) hrest
    exact next_of_freshLine ht rfl hline hstep hrest hnext.solid (isFiller_freshLine j)
      (by simp [freshLine])
  · intro hinline hlength t rest ht hmargin _ _ hrest
    exact next_of_colon ht hmargin rfl hrest (hfetch ht (by simp) hrest) hinline hlength

end Stencil.Yaml
