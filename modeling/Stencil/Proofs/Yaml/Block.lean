import Stencil.Proofs.Yaml.Spelling

/-!
# Blocks

A *part* of a block is an item or an entry, or the key or the value of one: some characters, from the
column of the block on, that are read as some tokens up to the next line that is no part of them
(`IsPart`). The first part of a block opens it, those behind it find it open; `Scan.openBlockHere`
covers both. Parts one below the other are a part again (`IsPart.append`), so a block is one.
-/

namespace Stencil.Yaml

variable {c : Char} {cs next rest v w x y : List Char} {i j n : Nat} {tok : Token}
  {ts us : List Token}

namespace Scan

variable {s t u : Scan}

/-! ## Steps in blocks -/

/-- The filler behind a token is passed, and then it goes on to another state. -/
def Reaches (s u : Scan) : Prop :=
  ∃ t, settled s = .ok t ∧ t.rest.length ≤ s.rest.length ∧ Leads t u

theorem leads_of_fetch (hrest : t.rest = c :: cs) (hfetch : fetch c cs t = .ok s)
    (hshorter : s.rest.length ≤ cs.length) (h : Reaches s u) : Leads t u := by
  obtain ⟨t', hsettled, hlength, hleads⟩ := h
  exact .head ⟨c, cs, s, hrest, hfetch, hsettled, Nat.le_trans hlength hshorter⟩ hleads

/-- Behind some filler. -/
def passing (v : List Char) (s : Scan) : Scan :=
  { s with cursor := s.cursor.advance v.length, allowsKey := s.allowsKey || v.contains '\n' }

/-- In a block settling only passes the filler, unless it goes to a column before that of the block. -/
theorem settled_passing (hs : s.InBlock) (hrest : s.rest = v ++ cs)
    (hv : ∀ c ∈ v, isFiller c = true) (hcs : isSolid cs = true)
    (hmargin : s.margin ≤ (s.passing v).column + 1) : settled s = .ok (s.passing v) := by
  have hbehind : s.behind v = s.passing v := by
    unfold behind passing
    dsimp only
    rw [hs.candidate_eq, hs.suspended_eq, hs.inFlow_eq, Bool.not_false, Bool.and_true]
    rfl
  rw [settled_eq hrest hv hcs, hbehind, closeToColumn_eq_self hmargin]
  intro k hk
  rcases hk with hk | hk
  · rw [hs.candidate_eq] at hk
    cases hk
  · rw [hs.suspended_eq] at hk
    cases hk

theorem past_passing (v : List Char) (n : Nat) (ts : List Token) (s : Scan) :
    (s.passing v).past n ts = s.past (v.length + n) ts := by
  simp [past, passing, Cursor.advance_add]

theorem InBlock.passing (h : s.InBlock) (v : List Char) : (s.passing v).InBlock :=
  ⟨h.suspended_eq, h.candidate_eq⟩

theorem rest_passing (hrest : s.rest = v ++ cs) : (s.passing v).rest = cs := rest_behind hrest

theorem reaches_of_passing (hs : s.InBlock) (hrest : s.rest = v ++ cs)
    (hv : ∀ c ∈ v, isFiller c = true) (hcs : isSolid cs = true)
    (hmargin : s.margin ≤ (s.passing v).column + 1) (h : Leads (s.passing v) u) : Reaches s u := by
  refine ⟨s.passing v, settled_passing hs hrest hv hcs hmargin, ?_, h⟩
  rw [rest_passing hrest, hrest, List.length_append]
  omega

/-! ## Opening and closing -/

/-- A block is opened where none is open. -/
theorem openBlockHere_of_le (h : t.margin ≤ t.column) :
    t.openBlockHere tok = { t with
      reversed := tok :: t.reversed
      margin := t.column + 1
      outer := t.margin :: t.outer } := by
  unfold openBlockHere openBlock
  rw [if_pos h, insertAt_eq (List.nil_append t.reversed).symm rfl]
  rfl

theorem openBlockHere_of_lt (h : t.column < t.margin) : t.openBlockHere tok = t := by
  unfold openBlockHere openBlock
  exact if_neg (Nat.not_le.2 h)

/-- Whether the block is opened or found open, there are blocks only inside it. -/
theorem margin_openBlockHere (h : t.margin ≤ t.column + 1) (tok : Token) :
    (t.openBlockHere tok).margin = t.column + 1 := by
  by_cases hmargin : t.margin ≤ t.column
  · rw [openBlockHere_of_le hmargin]
  · have hopen : t.margin = t.column + 1 := by omega
    rw [openBlockHere_of_lt (by omega), hopen]

theorem cursor_openBlockHere (t : Scan) (tok : Token) : (t.openBlockHere tok).cursor = t.cursor := by
  by_cases hmargin : t.margin ≤ t.column
  · rw [openBlockHere_of_le hmargin]
  · rw [openBlockHere_of_lt (by omega)]

theorem InBlock.openBlockHere (h : t.InBlock) (tok : Token) : (t.openBlockHere tok).InBlock := by
  by_cases hmargin : t.margin ≤ t.column
  · rw [openBlockHere_of_le hmargin]
    exact ⟨h.suspended_eq, h.candidate_eq⟩
  · rw [openBlockHere_of_lt (by omega)]
    exact h

/-- Behind its last part a block is closed. -/
theorem closeToColumn_openBlockHere (ht : t.InBlock) (hmargin : t.margin ≤ t.column)
    (hcolumn : (t.cursor.advance n).column < t.column) :
    ((t.openBlockHere tok).past n ts).closeToColumn =
      (t.past n (tok :: (ts ++ [.blockEnd]))).closeToColumn := by
  have hinner : ∀ s : Scan, s.InBlock → ∀ r, closeBlocks s.column s.margin s.reversed s.outer = r →
      s.closeToColumn = { s with margin := r.1, outer := r.2.1, reversed := r.2.2 } := by
    rintro s hs _ rfl
    unfold closeToColumn
    rw [hs.inFlow_eq]
    rfl
  have hopened : (t.openBlockHere tok).InBlock := ht.openBlockHere tok
  rw [openBlockHere_of_le hmargin] at hopened ⊢
  have hclose : closeBlocks (t.cursor.advance n).column (t.column + 1)
      (ts.reverse ++ tok :: t.reversed) (t.margin :: t.outer) =
        closeBlocks (t.cursor.advance n).column t.margin
          ((tok :: (ts ++ [.blockEnd])).reverse ++ t.reversed) t.outer := by
    rw [closeBlocks, if_pos (Nat.succ_lt_succ hcolumn)]
    simp
  exact (hinner _ (hopened.past n ts) _ hclose).trans (hinner _ (ht.past n _) _ rfl).symm

/-! ## Indicators -/

theorem checkBlock_eq (h : t.allowsKey = true) : checkBlock t = .ok t := by
  unfold checkBlock
  rw [h, Bool.not_true, Bool.and_false]
  rfl

theorem openBlockOutside_eq (h : t.InBlock) (tok : Token) :
    t.openBlockOutside tok = t.openBlockHere tok :=
  if_neg (by rw [h.inFlow_eq]; decide)

/-- An indicator at the begin of a part: a dash, a question mark, or a colon on its own. -/
structure Indicator where
  mark : Char
  token : Token
  block : Token
  mark_solid : isSolid [mark] = true
  fetch_eq : ∀ {t : Scan} {cs : List Char}, t.InBlock → t.allowsKey = true → endsHere cs = true →
    fetch mark cs t = .ok ((t.openBlockHere block).past 1 [token])

def Indicator.dash : Indicator where
  mark := '-'
  token := .dash
  block := .sequenceBlock
  mark_solid := by decide
  fetch_eq {t cs} ht hkey hends := by
    rw [fetch_dash hends, Scan.dash, checkBlock_eq hkey]
    show (dropCandidate (t.openBlockOutside .sequenceBlock) >>= _) = _
    rw [openBlockOutside_eq ht, dropCandidate_eq (ht.openBlockHere _).isIdle]
    rfl

def Indicator.question : Indicator where
  mark := '?'
  token := .key
  block := .mappingBlock
  mark_solid := by decide
  fetch_eq {t cs} ht hkey hends := by
    rw [fetch_question hends, Scan.key, checkBlock_eq hkey]
    show (dropCandidate (t.openBlockOutside .mappingBlock) >>= _) = _
    have hflow : (!(t.openBlockHere .mappingBlock).inFlow) = true := by
      rw [(ht.openBlockHere _).inFlow_eq]
      rfl
    rw [openBlockOutside_eq ht, dropCandidate_eq (ht.openBlockHere _).isIdle]
    show Except.ok (allowing (!(t.openBlockHere .mappingBlock).inFlow) _) = _
    rw [hflow]
    rfl

def Indicator.colon : Indicator where
  mark := ':'
  token := .value
  block := .mappingBlock
  mark_solid := by decide
  fetch_eq {t cs} ht hkey hends := by
    rw [fetch_colon (by rw [hends, Bool.or_true]), Scan.value, ht.candidate_eq]
    dsimp only
    have hflow : (!(t.openBlockHere .mappingBlock).inFlow) = true := by
      rw [(ht.openBlockHere _).inFlow_eq]
      rfl
    rw [checkBlock_eq hkey]
    show Except.ok (((t.openBlockOutside .mappingBlock).skip 1).emit .value |>.allowing
      (!(t.openBlockOutside .mappingBlock).inFlow)) = _
    rw [openBlockOutside_eq ht, hflow]
    unfold past
    rw [← (ht.openBlockHere .mappingBlock).candidate_eq]
    rfl

end Scan

open Scan

/-! ## Parts -/

/-- Some characters are read as a part of a block with a token of its own. -/
structure IsPart (tok : Token) (i : Nat) (x : List Char) (ts : List Token) : Prop where
  solid : ∀ rest, isSolid (x ++ rest) = true
  noMarker : ∀ j next, beginsWithMarker (x ++ freshLine j next) = false
  leads : ∀ {t : Scan} {j : Nat} {next : List Char}, t.InBlock → t.allowsKey = true →
    t.column = i → t.margin ≤ i + 1 → t.rest = x ++ freshLine j next → Resumes (i + 1) j next →
    Leads t ((t.openBlockHere tok).past (x.length + 1 + j) ts).closeToColumn

/-- Behind a line break the column is that of the indentation. -/
theorem column_advance_freshLine {p : Cursor} (h : p.rest = x ++ freshLine j next) :
    (p.advance (x.length + 1 + j)).column = j := by
  have hspaces : ∀ c ∈ List.replicate j ' ', Cursor.isInline c = true := by
    intro c hc
    rw [(List.mem_replicate.1 hc).2]
    rfl
  have hcolumn := Cursor.column_advance h rfl hspaces
  rwa [List.length_replicate] at hcolumn

theorem IsPart.append (hx : IsPart tok i x ts) (hy : IsPart tok i y us) :
    IsPart tok i (x ++ freshLine i y) (ts ++ us) where
  solid rest := by
    rw [List.append_assoc]
    exact hx.solid _
  noMarker j next := by
    have hline : x ++ freshLine i y ++ freshLine j next =
        x ++ freshLine i (y ++ freshLine j next) := by simp [freshLine]
    rw [hline]
    exact hx.noMarker _ _
  leads {t j next} ht hkey hcolumn hmargin hrest hnext := by
    have hsplit : t.rest = x ++ freshLine i (y ++ freshLine j next) := by
      simpa [freshLine] using hrest
    have hmore : Resumes (i + 1) i (y ++ freshLine j next) :=
      ⟨hy.solid _, hy.noMarker _ _, .inl (Nat.lt_succ_self i)⟩
    let b := t.openBlockHere tok
    let u := b.past (x.length + 1 + i) ts
    have hb : b.InBlock := ht.openBlockHere tok
    have hbmargin : b.margin = i + 1 := by
      rw [← hcolumn]
      exact margin_openBlockHere (by rw [hcolumn]; exact hmargin) tok
    have hbrest : b.rest = x ++ freshLine i (y ++ freshLine j next) := by
      show b.cursor.rest = _
      rw [cursor_openBlockHere]
      exact hsplit
    have hucolumn : u.column = i := column_advance_freshLine hbrest
    have hfirst : Leads t u := by
      have hleads := hx.leads ht hkey hcolumn hmargin hsplit hmore
      rwa [closeToColumn_eq_self (Nat.le_of_eq (by rw [hucolumn]; exact hbmargin))] at hleads
    have hurest : u.rest = y ++ freshLine j next := rest_past_freshLine hbrest ts
    have hopen : u.openBlockHere tok = u := by
      refine openBlockHere_of_lt ?_
      rw [hucolumn, show u.margin = i + 1 from hbmargin]
      exact Nat.lt_succ_self i
    have hsecond := hy.leads (hb.past _ ts) rfl hucolumn (Nat.le_of_eq hbmargin) hurest hnext
    have hlength : (x ++ freshLine i y).length + 1 + j =
        (x.length + 1 + i) + (y.length + 1 + j) := by
      rw [List.length_append, length_freshLine]
      omega
    rw [hopen, past_past] at hsecond
    rw [hlength]
    exact hfirst.trans hsecond

end Stencil.Yaml
