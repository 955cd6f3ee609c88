import Stencil.Proofs.Yaml.Scanning
import Stencil.Yaml.Style

/-!
# Fetching single tokens

Which token a character begins, and what fetching it does to the state. A state is *idle* if no key
must come (`Scan.IsIdle`); then giving up a candidate is no fault. Noting a candidate gives
`Scan.noted`.
-/

namespace Stencil.Yaml.Scan

variable {s t : Scan} {c : Char} {cs rest text : List Char}

/-! ## Candidates -/

/-- The candidate of the present level, if there is one, need not turn out to be a key. -/
def IsIdle (s : Scan) : Prop := ∀ k ∈ s.candidate?, k.isRequired = false

theorem isIdle_of_none (h : s.candidate? = none) : s.IsIdle := by
  intro k hk
  rw [h] at hk
  cases hk

theorem dropCandidate_eq (h : s.IsIdle) : s.dropCandidate = .ok { s with candidate? := none } := by
  unfold dropCandidate
  rcases hk : s.candidate? with _ | k
  · rfl
  · rw [Option.map_some, h k hk]
    rfl

/-- The state in which a key may have begun here. -/
def noted (s : Scan) : Scan :=
  if s.allowsKey then
    { s with
      candidate? := some ⟨s.reversed.length, !s.inFlow && s.margin == s.column + 1, s.cursor⟩ }
  else s

theorem noteCandidate_eq (h : s.IsIdle) : s.noteCandidate = .ok s.noted := by
  unfold noteCandidate noted
  by_cases hkey : s.allowsKey = true
  · rw [if_pos hkey, if_pos hkey, dropCandidate_eq h]
    rfl
  · rw [if_neg hkey, if_neg hkey]
    rfl

@[simp] theorem cursor_noted (s : Scan) : s.noted.cursor = s.cursor := by
  unfold noted
  split <;> rfl

@[simp] theorem reversed_noted (s : Scan) : s.noted.reversed = s.reversed := by
  unfold noted
  split <;> rfl

@[simp] theorem margin_noted (s : Scan) : s.noted.margin = s.margin := by
  unfold noted
  split <;> rfl

@[simp] theorem outer_noted (s : Scan) : s.noted.outer = s.outer := by
  unfold noted
  split <;> rfl

@[simp] theorem suspended_noted (s : Scan) : s.noted.suspended = s.suspended := by
  unfold noted
  split <;> rfl

@[simp] theorem inFlow_noted (s : Scan) : s.noted.inFlow = s.inFlow := by
  simp [inFlow]

@[simp] theorem rest_noted (s : Scan) : s.noted.rest = s.rest := by
  simp [rest]

/-- The state behind an opening bracket or brace. -/
def opened (tok : Token) (s : Scan) : Scan :=
  { s.noted with
    cursor := s.cursor.advance 1
    reversed := tok :: s.reversed
    candidate? := none
    suspended := s.noted.candidate? :: s.suspended
    allowsKey := true }

theorem openFlow_eq {tok : Token} (h : s.IsIdle) : openFlow tok s = .ok (s.opened tok) := by
  unfold openFlow
  rw [noteCandidate_eq h]
  simp [opened, bind, Except.bind, pure, Except.pure, skip, emit, allowing]

/-- Tokens are put behind those that end the list. -/
theorem insertAt_eq {xs us ts : List Token} {position : Nat} (hs : s.reversed = xs ++ us)
    (hposition : position = us.length) :
    s.insertAt position ts = { s with reversed := xs ++ ts.reverse ++ us } := by
  have hlater : s.reversed.length - position = xs.length := by
    rw [hs, hposition, List.length_append, Nat.add_sub_cancel]
  unfold insertAt
  dsimp only
  rw [hlater, hs, List.take_left, List.drop_left]

/-- A candidate stays up to the end of what stands on its line and is not too long. -/
theorem keep_inline {k : Candidate} {w : List Char} (hrest : k.start.rest = w ++ cs)
    (hw : ∀ c ∈ w, Cursor.isInline c = true) (hlength : w.length ≤ keyLimit) :
    keep (k.start.advance w.length) (some k) = some k := by
  have hkept : isLapsed (k.start.advance w.length) k = false := by
    rw [Cursor.advance_inline hrest hw]
    simp only [isLapsed, bne_self_eq_false, Bool.false_or, decide_eq_false_iff_not]
    omega
  simp [keep, hkept]

/-- Between brackets a colon only puts the token of the key before the last one. -/
theorem settle_of_inFlow {k : Candidate} {x : Token} {us : List Token} (hflow : s.inFlow = true)
    (hs : s.reversed = x :: us) (hposition : k.position = us.length) :
    settle k s = { s with
      cursor := s.cursor.advance 1
      reversed := .value :: x :: .key :: us
      candidate? := none
      allowsKey := false } := by
  have hlast : s.reversed = [x] ++ us := hs
  have hinsert : s.insertAt k.position [.key] = { s with reversed := x :: .key :: us } :=
    insertAt_eq hlast hposition
  have hinsertFlow : Scan.inFlow { s with reversed := x :: .key :: us, candidate? := none } = true :=
    hflow
  unfold settle
  rw [hinsert]
  dsimp only
  rw [if_pos hinsertFlow]
  rfl

/-! ## Characters that begin tokens -/

/-- The mark of a document has no blank behind its first character. -/
theorem beginsLikeMarker_cons_of_endsHere (h : endsHere cs = true) (c : Char) :
    beginsLikeMarker (c :: cs) = false := by
  cases cs with
  | nil => simp [beginsLikeMarker]
  | cons d cs =>
    have hblank : isBlankOrBreak d = true := h
    have hdash : d ≠ '-' := by
      rintro rfl
      revert hblank
      decide
    have hdot : d ≠ '.' := by
      rintro rfl
      revert hblank
      decide
    simp [beginsLikeMarker, hdash, hdot]

theorem fetch_double (cs : List Char) (t : Scan) : fetch '\x22' cs t = quotedScalar true t := by
  simp [fetch]

theorem fetch_single (cs : List Char) (t : Scan) : fetch '\x27' cs t = quotedScalar false t := by
  simp [fetch]

theorem fetch_openBracket (cs : List Char) (t : Scan) :
    fetch '[' cs t = openFlow .openBracket t := by
  simp [fetch]

theorem fetch_openBrace (cs : List Char) (t : Scan) :
    fetch '\x7b' cs t = openFlow .openBrace t := by
  simp [fetch]

theorem fetch_closeBracket (cs : List Char) (t : Scan) :
    fetch ']' cs t = closeFlow .closeBracket t := by
  simp [fetch]

theorem fetch_closeBrace (cs : List Char) (t : Scan) :
    fetch '\x7d' cs t = closeFlow .closeBrace t := by
  simp [fetch]

theorem fetch_comma (cs : List Char) (t : Scan) : fetch ',' cs t = comma t := by
  simp [fetch]

theorem fetch_colon (h : (t.inFlow || endsHere cs) = true) : fetch ':' cs t = value t := by
  simp [fetch, h]

theorem fetch_question (h : endsHere cs = true) : fetch '?' cs t = key t := by
  simp [fetch, h]

theorem fetch_dash (h : endsHere cs = true) : fetch '-' cs t = dash t := by
  simp [fetch, h, beginsWithMarker, beginsLikeMarker_cons_of_endsHere h]

/-- The mark at the end of a document. -/
theorem fetch_documentEnd (hcolumn : t.column = 0) (h : beginsWithMarker ('.' :: cs) = true) :
    fetch '.' cs t = marker .documentEnd t := by
  simp [fetch, hcolumn, h]

/-- What begins like no markup begins a plain scalar. -/
theorem fetch_plain (hlead : Traits.leadsWithIndicator (c :: cs) = false)
    (hmarker : beginsLikeMarker (c :: cs) = false) (hblank : isBlankOrBreak c = false)
    (hflow : t.inFlow = true → c ≠ '?' ∧ c ≠ ':') : fetch c cs t = plainScalar t := by
  simp only [Traits.leadsWithIndicator, Traits.leadingIndicators, Bool.or_eq_false_iff,
    List.contains_cons, List.contains_nil, beq_eq_false_iff_ne, ne_eq, and_true] at hlead
  obtain ⟨hne, hlone⟩ := hlead
  have hstands : ∀ d, c = d → (d == '?' || d == ':' || d == '-') = true → endsHere cs = false := by
    rintro d rfl hd
    rwa [hd, Bool.true_and] at hlone
  have hnomark : beginsWithMarker (c :: cs) = false := by
    rw [beginsWithMarker, hmarker, Bool.false_and]
  -- Three indicators may begin a plain scalar if no blank follows.
  by_cases hdash : c = '-'
  · have hends := hstands _ hdash rfl
    subst hdash
    simp [fetch, hends, hnomark, Unquoted.startsHere]
  by_cases hquestion : c = '?'
  · have hends := hstands _ hquestion rfl
    have hblock : t.inFlow = false := by
      rw [← Bool.not_eq_true]
      exact fun h => (hflow h).1 hquestion
    subst hquestion
    simp [fetch, hends, hblock, Unquoted.startsHere]
  by_cases hcolon : c = ':'
  · have hends := hstands _ hcolon rfl
    have hblock : t.inFlow = false := by
      rw [← Bool.not_eq_true]
      exact fun h => (hflow h).2 hcolon
    subst hcolon
    simp [fetch, hends, hblock, Unquoted.startsHere]
  · simp [fetch, hne, hnomark, hdash, hquestion, hcolon, Unquoted.startsHere,
      Unquoted.isFlowIndicator, hblank]

/-! ## Scalars -/

theorem rest_skip (n : Nat) (s : Scan) : (s.skip n).rest = s.rest.drop n :=
  Cursor.rest_advance s.cursor n

theorem skipTo_eq {w : List Char} (hrest : s.rest = w ++ cs) : s.skipTo cs = s.skip w.length := by
  rw [skipTo, Cursor.advanceTo_eq hrest]
  rfl

/-- The state behind a scalar of so many characters. -/
def behindScalar (n : Nat) (text : List Char) (isPlain allowsKey : Bool) (t : Scan) : Scan :=
  ((t.noted.skip n).emit (.scalar text isPlain)).allowing allowsKey

theorem quotedScalar_eq {isDouble : Bool} {w : List Char} (hidle : t.IsIdle)
    (hrest : t.rest = c :: (w ++ cs)) (hscan : Quoted.scan isDouble (w ++ cs) = .ok (text, cs)) :
    quotedScalar isDouble t = .ok (t.behindScalar (w.length + 1) text false false) := by
  have hnoted : t.noted.rest = (c :: w) ++ cs := by rw [rest_noted, hrest]; rfl
  unfold quotedScalar
  rw [noteCandidate_eq hidle]
  show (Quoted.scan isDouble t.noted.rest.tail >>= fun r =>
    pure (((t.noted.skipTo r.2).emit (.scalar r.1 false)).allowing false)) = _
  rw [hnoted, List.cons_append, List.tail_cons, hscan]
  show Except.ok (((t.noted.skipTo cs).emit (.scalar text false)).allowing false) = _
  rw [skipTo_eq hnoted]
  rfl

theorem plainScalar_eq {crossed : Bool} {w : List Char} (hidle : t.IsIdle) (hrest : t.rest = w ++ cs)
    (hscan : Unquoted.scan t.inFlow t.margin t.rest = ⟨text, cs, crossed⟩) :
    plainScalar t = .ok (t.behindScalar w.length text true crossed) := by
  have hnoted : t.noted.rest = w ++ cs := by rw [rest_noted, hrest]
  have hnotedScan : Unquoted.scan t.noted.inFlow t.noted.margin t.noted.rest = ⟨text, cs, crossed⟩ := by
    rw [inFlow_noted, margin_noted, rest_noted, hscan]
  unfold plainScalar
  rw [noteCandidate_eq hidle]
  show (let r := Unquoted.scan t.noted.inFlow t.noted.margin t.noted.rest
    Except.ok (((t.noted.skipTo r.rest).emit (.scalar r.text true)).allowing r.crossed)) = _
  rw [hnotedScan]
  dsimp only
  rw [skipTo_eq hnoted]
  rfl

end Stencil.Yaml.Scan
