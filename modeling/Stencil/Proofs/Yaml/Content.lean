import Stencil.Proofs.Yaml.Block
import Stencil.Proofs.Yaml.Flow

/-!
# The contents of parts

The *content* of a part stands in a slot, behind an indicator on the line of the part or behind a key
(`Slot`, `Fits`); with what is before it, it is a part (`Fits.isPart`, `Fits.isEntry`). A node on its
line is content (`IsLeaf.fits`), and a block is if it is closed at its end, or shares the column of
the key before it (`IsPart.fits`, `IsPart.fits_under`).
-/

namespace Stencil.Yaml

open Scan

variable {c : Char} {cs next rest v w x : List Char} {i j n : Nat} {tok : Token} {ts : List Token}

/-! ## Slots -/

/-- A place for the content of a part: behind an indicator on its line, or behind a key. -/
inductive Slot where
  | inline (column : Nat)
  | under (column : Nat)

namespace Slot

/-- The column of the block. -/
def column : Slot → Nat
  | inline column => column
  | under column => column

/-- Blocks may begin on the line of the part. -/
def isInline : Slot → Bool
  | inline _ => true
  | under _ => false

/-- The column of a sequence in the slot. One that is the value of a key shares its column. -/
def sequenceColumn : Slot → Nat
  | inline column => column + 2
  | under column => column

/-- What stands before a block in the slot, at a column. -/
def gap (slot : Slot) (column : Nat) : List Char :=
  match slot with
  | inline _ => [' ']
  | under _ => freshLine column []

theorem isFiller_gap (slot : Slot) (column : Nat) : ∀ c ∈ slot.gap column, isFiller c = true := by
  cases slot with
  | inline => exact List.forall_mem_singleton.2 rfl
  | under => exact isFiller_freshLine column

end Slot

/-- A state behind an indicator or a key. -/
structure Scan.StandsIn (s : Scan) (slot : Slot) : Prop extends s.InBlock where
  margin_eq : s.margin = slot.column + 1
  column_lt : slot.column < s.column
  column_eq : slot.isInline = true → s.column = slot.column + 1
  allowsKey_eq : s.allowsKey = slot.isInline

/-- Some characters are read as the content of a part. -/
structure Fits (slot : Slot) (w : List Char) (ts : List Token) : Prop where
  endsHere_eq : ∀ rest, endsHere (w ++ rest) = true
  reaches : ∀ {s : Scan} {j : Nat} {next : List Char}, s.StandsIn slot → s.rest = w ++ freshLine j next →
    Resumes s.margin j next → Reaches s (s.past (w.length + 1 + j) ts).closeToColumn

variable {slot : Slot}

/-- Behind the gap before a block is its column. -/
theorem Scan.StandsIn.column_passing {s : Scan} (hs : s.StandsIn slot)
    (hi : slot.isInline = true → i = slot.column + 2) (hrest : s.rest = slot.gap i ++ cs) :
    (s.passing (slot.gap i)).column = i := by
  cases slot with
  | inline k =>
    have hspace : s.cursor.rest = [' '] ++ cs := hrest
    obtain rfl := hi rfl
    show (s.cursor.advance [' '].length).column = _
    rw [Cursor.advance_inline hspace (List.forall_mem_singleton.2 rfl)]
    exact congrArg (· + 1) (hs.column_eq rfl)
  | under k =>
    have hline : s.cursor.rest = [] ++ freshLine i cs := by
      rw [freshLine_eq_append]
      exact hrest
    show (s.cursor.advance (freshLine i []).length).column = i
    rw [length_freshLine]
    exact column_advance_freshLine hline

theorem isInline_of_isSolid (h : isSolid (c :: cs) = true) : Cursor.isInline c = true := by
  simp only [isSolid, Bool.and_eq_true] at h
  rw [Cursor.isInline, h.1.1.2, h.2]
  rfl

/-- Behind characters of a line a state is as much further on the line. -/
theorem Scan.column_past {t : Scan} (hrest : t.rest = v ++ cs)
    (hv : ∀ c ∈ v, Cursor.isInline c = true) (ts : List Token) :
    (t.past v.length ts).column = t.column + v.length := by
  show (t.cursor.advance v.length).column = _
  rw [Cursor.advance_inline hrest hv]
  rfl

/-- Content behind an indicator is a part. -/
theorem Fits.isPart (m : Indicator) (h : Fits (.inline i) w ts) :
    IsPart m.block i (m.mark :: w) (m.token :: ts) where
  solid _ := m.mark_solid
  noMarker j next := by
    rw [List.cons_append, beginsWithMarker, beginsLikeMarker_cons_of_endsHere (h.endsHere_eq _),
      Bool.false_and]
  leads {t j next} ht hkey hcolumn hmargin hrest hnext := by
    let b := t.openBlockHere m.block
    let s := b.past 1 [m.token]
    have hb : b.InBlock := ht.openBlockHere m.block
    have hbcursor : b.cursor = t.cursor := cursor_openBlockHere t m.block
    have hbmargin : b.margin = i + 1 := by
      rw [← hcolumn]
      exact margin_openBlockHere (by rw [hcolumn]; exact hmargin) m.block
    have hbrest : b.rest = [m.mark] ++ (w ++ freshLine j next) := by
      show b.cursor.rest = _
      rw [hbcursor]
      exact hrest
    have hinline : ∀ c ∈ [m.mark], Cursor.isInline c = true :=
      List.forall_mem_singleton.2 (isInline_of_isSolid m.mark_solid)
    have hscolumn : s.column = i + 1 := by
      refine (column_past hbrest hinline _).trans ?_
      show b.cursor.column + 1 = i + 1
      rw [hbcursor]
      exact congrArg (· + 1) hcolumn
    have hs : s.StandsIn (.inline i) :=
      ⟨hb.past _ _, hbmargin, by rw [hscolumn]; exact Nat.lt_succ_self i, fun _ => hscolumn, rfl⟩
    have hsrest : s.rest = w ++ freshLine j next := rest_past hbrest rfl
    have hreaches := h.reaches hs hsrest (by rw [show s.margin = i + 1 from hbmargin]; exact hnext)
    have hlength : (m.mark :: w).length + 1 + j = 1 + (w.length + 1 + j) := by
      rw [List.length_cons]
      omega
    rw [past_past] at hreaches
    rw [hlength]
    exact leads_of_fetch hrest (m.fetch_eq ht hkey (h.endsHere_eq _)) (Nat.le_of_eq (congrArg _ hsrest))
      hreaches

/-- At the colon the token of the key is put before it, with that of the block it opens. -/
theorem settle_behindScalar {t : Scan} {text : List Char} {isPlain isRequired : Bool} (ht : t.InBlock) :
    settle ⟨t.reversed.length, isRequired, t.cursor⟩ (t.behindScalar n text isPlain false) =
      ((t.openBlockHere .mappingBlock).past (n + 1)
        [.key, .scalar text isPlain, .value]).allowing false := by
  let s := t.behindScalar n text isPlain false
  let s' : Scan := { s with
    reversed := .scalar text isPlain :: .key :: t.reversed
    candidate? := none }
  have hreversed : s.reversed = [.scalar text isPlain] ++ t.reversed :=
    congrArg (_ :: ·) (reversed_noted t)
  have hinsert : s.insertAt t.reversed.length [.key] =
      { s with reversed := .scalar text isPlain :: .key :: t.reversed } :=
    insertAt_eq hreversed rfl
  have hflow : s'.inFlow = false := by
    rw [inFlow, show s'.suspended = [] from ht.suspended_noted]
    rfl
  have hblock : s'.openBlock .mappingBlock t.reversed.length t.column = { s' with
      reversed := .scalar text isPlain :: .key :: (t.openBlockHere .mappingBlock).reversed
      margin := (t.openBlockHere .mappingBlock).margin
      outer := (t.openBlockHere .mappingBlock).outer } := by
    have hs'margin : s'.margin = t.margin := margin_noted t
    unfold openBlock
    by_cases hmargin : t.margin ≤ t.column
    · have hs' : s'.reversed = [.scalar text isPlain, .key] ++ t.reversed := rfl
      rw [openBlockHere_of_le hmargin, if_pos (hs'margin ▸ hmargin), insertAt_eq hs' rfl,
        show s'.outer = t.outer from outer_noted t, hs'margin]
      rfl
    · rw [openBlockHere_of_lt (by omega), if_neg (hs'margin ▸ hmargin), ← hs'margin,
        ← show s'.outer = t.outer from outer_noted t]
  unfold settle
  rw [hinsert]
  show (((if s'.inFlow then s' else
    s'.openBlock .mappingBlock t.reversed.length t.column).skip 1).emit .value).allowing false = _
  rw [hflow, if_neg Bool.false_ne_true, hblock]
  unfold past
  rw [cursor_openBlockHere, Cursor.advance_add, ← cursor_noted t,
    (ht.openBlockHere .mappingBlock).suspended_eq]
  simp [s', s, skip, emit, allowing, behindScalar, ht.suspended_eq]

/-- The state behind a key and its colon: the block of the key is open. -/
def Scan.behindKey (t : Scan) (n : Nat) (text : List Char) (isPlain : Bool) : Scan :=
  ((t.openBlockHere .mappingBlock).past (n + 1) [.key, .scalar text isPlain, .value]).allowing false

theorem fetch_behindKey {t : Scan} {text : List Char} {isPlain : Bool} (ht : t.InBlock)
    (hallows : t.allowsKey = true) (hends : endsHere cs = true) :
    fetch ':' cs (t.behindScalar n text isPlain false) = .ok (t.behindKey n text isPlain) := by
  have hcandidate : (t.behindScalar n text isPlain false).candidate? =
      some ⟨t.reversed.length, t.margin == t.column + 1, t.cursor⟩ := by
    show t.noted.candidate? = _
    rw [ht.candidate_noted, if_pos hallows]
  rw [fetch_colon (by rw [hends, Bool.or_true]), Scan.value, hcandidate]
  exact congrArg Except.ok (settle_behindScalar ht)

/-- Behind a key a value stands in the slot under it. -/
theorem standsIn_behindKey {t : Scan} (text : List Char) (isPlain : Bool) (ht : t.InBlock)
    (hmargin : t.margin ≤ t.column + 1) (hinline : ∀ c ∈ v, Cursor.isInline c = true)
    (hrest : t.rest = v ++ ':' :: cs) :
    (t.behindKey v.length text isPlain).StandsIn (.under t.column) ∧
      (t.behindKey v.length text isPlain).rest = cs := by
  let b := t.openBlockHere .mappingBlock
  have hb : b.InBlock := ht.openBlockHere .mappingBlock
  have hbmargin : b.margin = t.column + 1 := margin_openBlockHere hmargin _
  have hbcolumn : b.column = t.column := congrArg Cursor.column (cursor_openBlockHere t _)
  have hbrest : b.rest = (v ++ [':']) ++ cs := by
    show b.cursor.rest = _
    rw [cursor_openBlockHere, List.append_assoc]
    exact hrest
  have hcolon : ∀ c ∈ v ++ [':'], Cursor.isInline c = true :=
    List.forall_mem_append.2 ⟨hinline, List.forall_mem_singleton.2 rfl⟩
  have hcolumn : t.column < (b.past (v ++ [':']).length []).column := by
    rw [column_past hbrest hcolon, hbcolumn, List.length_append, List.length_singleton]
    omega
  have hpast : (b.past (v ++ [':']).length []).rest = cs := rest_past hbrest rfl
  rw [List.length_append, List.length_singleton] at hcolumn hpast
  exact ⟨⟨⟨hb.suspended_eq, rfl⟩, hbmargin, hcolumn, nofun, rfl⟩, hpast⟩

/-- A key with the content behind its colon is a part. -/
theorem Fits.isEntry {text : List Char} {isPlain : Bool} {indent : Nat}
    (hkey : Spells indent v text isPlain) (hinline : ∀ c ∈ v, Cursor.isInline c = true)
    (hlength : v.length ≤ keyLimit) (hindent : i + 1 ≤ indent) (h : Fits (.under i) w ts) :
    IsPart .mappingBlock i (v ++ ':' :: w) (.key :: .scalar text isPlain :: .value :: ts) where
  solid rest := by
    rw [List.append_assoc]
    exact hkey.solid _
  noMarker j next := by
    rw [List.append_assoc]
    exact hkey.noMarker _ _ (by decide) (by decide)
  leads {t j next} ht hallows hcolumn hmargin hrest hnext := by
    subst hcolumn
    let k := t.behindScalar v.length text isPlain false
    let s := t.behindKey v.length text isPlain
    have hsplit : t.rest = v ++ ':' :: (w ++ freshLine j next) := by
      rw [hrest, List.append_assoc]
      rfl
    have hfirst : Next t k :=
      hkey.colon hinline hlength ht hmargin (by omega) (h.endsHere_eq _) hsplit
    have hkrest : k.rest = ':' :: (w ++ freshLine j next) := rest_behindScalar hsplit rfl
    have hfetch : fetch ':' (w ++ freshLine j next) k = .ok s :=
      fetch_behindKey ht hallows (h.endsHere_eq _)
    obtain ⟨hs, hsrest⟩ := standsIn_behindKey text isPlain ht hmargin hinline hsplit
    have hreaches := h.reaches hs hsrest (by rw [hs.margin_eq]; exact hnext)
    have hpast : s.past (w.length + 1 + j) ts = (t.openBlockHere .mappingBlock).past
        ((v ++ ':' :: w).length + 1 + j) (.key :: .scalar text isPlain :: .value :: ts) := by
      refine (past_past _ _ _ _ _).trans ?_
      rw [List.length_append, List.length_cons, show v.length + 1 + (w.length + 1 + j) =
        v.length + (w.length + 1) + 1 + j by omega]
      rfl
    rw [hpast] at hreaches
    exact .head hfirst (leads_of_fetch hkrest hfetch (Nat.le_of_eq (congrArg _ hsrest)) hreaches)

/-- Some characters are read as a node on its line, whose further lines are indented. -/
structure IsLeaf (indent : Nat) (w : List Char) (ts : List Token) : Prop where
  solid : ∀ rest, isSolid (w ++ rest) = true
  leads : ∀ {t : Scan} {j : Nat} {next : List Char}, t.Stands → t.margin ≤ indent →
    t.rest = w ++ freshLine j next → Resumes t.margin j next →
    Leads t (t.past (w.length + 1 + j) ts).closeToColumn

theorem Spells.isLeaf {text : List Char} {isPlain : Bool} {indent : Nat}
    (h : Spells indent w text isPlain) : IsLeaf indent w [.scalar text isPlain] where
  solid := h.solid
  leads ht hmargin hrest hnext := .single (h.line ht hmargin hrest hnext)

/-- Behind an opening bracket the candidate from before it is kept. -/
theorem Scan.Stands.next_opened {t : Scan} (ht : t.Stands) (hrest : t.rest = c :: cs)
    (hcs : isSolid cs = true) (hopen : fetch c cs t = openFlow tok t) :
    Next t ((t.opened tok).behind []) := by
  let s := t.opened tok
  have hsrest : s.rest = [] ++ cs := by
    show (t.skip 1).rest = _
    rw [rest_skip, hrest]
    rfl
  have hsettled : settled s = .ok (s.behind []) := by
    rw [settled_eq hsrest (List.forall_mem_nil _) hcs]
    · have hflow : (s.behind []).inFlow = true := rfl
      rw [closeToColumn, if_pos hflow]
    · intro k hk hrequired
      rcases hk with hk | hk
      · cases hk
      · rw [show s.suspended = [t.noted.candidate?] from congrArg _ ht.suspended_eq,
          List.mem_singleton] at hk
        rw [(ht.of_candidate_noted hk.symm).1] at hrequired
        cases hrequired
  refine ⟨c, cs, s, hrest, hopen.trans (openFlow_eq ht.isIdle), hsettled, ?_⟩
  exact Nat.le_of_eq (congrArg List.length (rest_behind hsrest))

/-- The state behind brackets with nothing between them: the candidate from before them is back. -/
def Scan.behindBrackets (t : Scan) (opens closes : Token) : Scan :=
  { t with
    cursor := t.cursor.advance 2
    reversed := closes :: opens :: t.reversed
    candidate? := keep (t.cursor.advance 1) t.noted.candidate?
    allowsKey := false }

theorem closeFlow_behindBrackets {t : Scan} (ht : t.InBlock) (opens closes : Token) :
    closeFlow closes ((t.opened opens).behind []) = .ok (t.behindBrackets opens closes) := by
  have hsuspended : ((t.opened opens).behind []).suspended =
      [keep (t.cursor.advance 1) t.noted.candidate?] := by
    show (t.noted.candidate? :: t.suspended).map _ = _
    rw [ht.suspended_eq]
    rfl
  rw [closeFlow, hsuspended]
  simp [behindBrackets, opened, behind, skip, emit, allowing, Cursor.advance, ht.suspended_eq]

/-- On another line the candidate from before the brackets lapses. -/
theorem settled_behindBrackets {t : Scan} (ht : t.Stands) {opening closing : Char}
    (opens closes : Token) (hrest : t.rest = [opening, closing] ++ freshLine j next)
    (hnext : isSolid next = true) : settled (t.behindBrackets opens closes) =
      .ok (t.past (2 + 1 + j) [opens, closes]).closeToColumn := by
  let s := t.behindBrackets opens closes
  have hsrest : s.rest = freshLine j [] ++ next := by
    show (t.skip 2).rest = _
    rw [rest_skip, hrest, ← freshLine_eq_append]
    rfl
  have hcursor : s.cursor.advance (freshLine j []).length = t.cursor.advance (2 + 1 + j) := by
    show (t.cursor.advance 2).advance _ = _
    rw [length_freshLine, List.length_nil, ← Cursor.advance_add, Nat.add_zero, Nat.add_assoc]
  have hlapses : s.Lapses (freshLine j []).length := by
    intro k hk
    obtain ⟨hrequired, hstart⟩ := ht.of_candidate_noted (Afloat.mem_keep hk)
    rw [hcursor, hstart]
    exact ⟨hrequired, Cursor.line_lt_advance (w := [opening, closing]) hrest rfl j⟩
  have hpast : s.past (freshLine j []).length [] = t.past (2 + 1 + j) [opens, closes] := by
    unfold past
    rw [hcursor]
    simp [s, behindBrackets]
  rw [← hpast]
  exact settled_past hsrest (isFiller_freshLine j) hnext ht.suspended_eq hlapses (by simp [freshLine])

/-- Brackets with nothing between them. -/
theorem isLeaf_brackets {opening closing : Char} {opens closes : Token}
    (hsolid : isSolid [opening] = true) (hsolid' : isSolid [closing] = true)
    (hopen : ∀ cs t, fetch opening cs t = openFlow opens t)
    (hclose : ∀ cs t, fetch closing cs t = closeFlow closes t) (indent : Nat) :
    IsLeaf indent [opening, closing] [opens, closes] where
  solid _ := hsolid
  leads {t j next} ht _ hrest hnext := by
    let u := (t.opened opens).behind []
    have hfirst : Next t u := ht.next_opened hrest hsolid' (hopen _ _)
    have hurest : u.rest = closing :: freshLine j next := by
      refine rest_behind (v := []) ?_
      show (t.skip 1).rest = _
      rw [rest_skip, hrest]
      rfl
    have hfetch : fetch closing (freshLine j next) u = .ok (t.behindBrackets opens closes) :=
      (hclose _ _).trans (closeFlow_behindBrackets ht.toInBlock opens closes)
    have hsettled := settled_behindBrackets ht opens closes hrest hnext.solid
    refine .head hfirst (.single ⟨_, _, _, hurest, hfetch, hsettled, ?_⟩)
    rw [rest_closeToColumn, rest_past_freshLine (w := [opening, closing]) hrest, length_freshLine]
    omega

/-- A node on the line of the part is content. -/
theorem IsLeaf.fits {indent : Nat} (h : IsLeaf indent w ts) (hindent : slot.column + 1 ≤ indent) :
    Fits slot (' ' :: w) ts where
  endsHere_eq _ := rfl
  reaches {s j next} hs hrest hnext := by
    let t := s.passing [' ']
    have hsplit : s.rest = [' '] ++ (w ++ freshLine j next) := hrest
    have htcolumn : t.column = s.column + 1 := by
      show (s.cursor.advance [' '].length).column = _
      rw [Cursor.advance_inline hsplit (List.forall_mem_singleton.2 rfl)]
      rfl
    have htmargin : t.margin = slot.column + 1 := hs.margin_eq
    have hstands : t.Stands := by
      refine ⟨hs.toInBlock.passing _, fun _ => ?_⟩
      rw [htmargin, htcolumn]
      exact Nat.succ_le_succ (Nat.le_of_lt hs.column_lt)
    have hleads := h.leads hstands (htmargin ▸ hindent) (rest_passing hsplit) hnext
    have hlength : (' ' :: w).length + 1 + j = 1 + (w.length + 1 + j) := by
      rw [List.length_cons]
      omega
    have hpast := past_passing [' '] (w.length + 1 + j) ts s
    rw [hpast] at hleads
    rw [hlength]
    refine reaches_of_passing hs.toInBlock hsplit (List.forall_mem_singleton.2 rfl) (h.solid _) ?_ hleads
    show t.margin ≤ t.column + 1
    rw [htmargin, htcolumn]
    have hcolumn := hs.column_lt
    omega

/-- A block is gone to, and opened if it begins behind the column of the part. -/
theorem IsPart.reaches (h : IsPart tok i x ts) {s : Scan} (hs : s.StandsIn slot)
    (hi : slot.isInline = true → i = slot.column + 2) (hcolumn : slot.column ≤ i)
    (hrest : s.rest = slot.gap i ++ x ++ freshLine j next) (hnext : Resumes s.margin j next) :
    Reaches s (((s.passing (slot.gap i)).openBlockHere tok).past (x.length + 1 + j) ts).closeToColumn := by
  let t := s.passing (slot.gap i)
  have hsplit : s.rest = slot.gap i ++ (x ++ freshLine j next) := by
    rw [hrest, List.append_assoc]
  have htcolumn : t.column = i := hs.column_passing hi hsplit
  have htmargin : t.margin = slot.column + 1 := hs.margin_eq
  have hallows : t.allowsKey = true := by
    show (s.allowsKey || (slot.gap i).contains '\n') = true
    rw [hs.allowsKey_eq]
    cases slot <;> simp [Slot.isInline, Slot.gap, freshLine]
  have hbefore : j < i + 1 ∨ j = 0 ∧ next = [] := by
    refine hnext.isBefore.imp_left fun hj => ?_
    rw [hs.margin_eq] at hj
    omega
  have hmargin : t.margin ≤ i + 1 := by omega
  refine reaches_of_passing hs.toInBlock hsplit (slot.isFiller_gap i) (h.solid _) ?_ ?_
  · show t.margin ≤ t.column + 1
    rw [htcolumn]
    exact hmargin
  · exact h.leads (hs.toInBlock.passing _) hallows htcolumn hmargin (rest_passing hsplit)
      ⟨hnext.solid, hnext.noMarker, hbefore⟩

theorem endsHere_gap (slot : Slot) (i : Nat) (cs : List Char) : endsHere (slot.gap i ++ cs) = true := by
  cases slot <;> rfl

/-- A block inside a part is content. -/
theorem IsPart.fits (h : IsPart tok (slot.column + 2) x ts) :
    Fits slot (slot.gap (slot.column + 2) ++ x) (tok :: (ts ++ [.blockEnd])) where
  endsHere_eq rest := by
    rw [List.append_assoc]
    exact endsHere_gap _ _ _
  reaches {s j next} hs hrest hnext := by
    let v := slot.gap (slot.column + 2)
    let t := s.passing v
    have hsplit : s.rest = v ++ (x ++ freshLine j next) := by
      rw [hrest, List.append_assoc]
    have htrest : t.cursor.rest = x ++ freshLine j next := rest_passing hsplit
    have htmargin : t.margin = slot.column + 1 := hs.margin_eq
    have htcolumn : t.column = slot.column + 2 := hs.column_passing (fun _ => rfl) hsplit
    have hbefore : (t.cursor.advance (x.length + 1 + j)).column < t.column := by
      rw [column_advance_freshLine htrest, htcolumn]
      rcases hnext.isBefore with hj | ⟨rfl, -⟩
      · rw [hs.margin_eq] at hj
        omega
      · omega
    have hreaches := h.reaches hs (fun _ => rfl) (by omega) hrest hnext
    have hopens : t.margin ≤ t.column := by
      rw [htmargin, htcolumn]
      exact Nat.le_succ _
    rw [closeToColumn_openBlockHere (hs.toInBlock.passing v) hopens hbefore, past_passing] at hreaches
    rw [List.length_append, Nat.add_assoc, Nat.add_assoc, ← Nat.add_assoc x.length]
    exact hreaches

/-- A block at the column of the key before it is content. -/
theorem IsPart.fits_under (h : IsPart tok i x ts) : Fits (.under i) (freshLine i x) ts where
  endsHere_eq _ := rfl
  reaches {s j next} hs hrest hnext := by
    let v := (Slot.under i).gap i
    have hline : freshLine i x = v ++ x := freshLine_eq_append i x
    rw [hline] at hrest ⊢
    have hreaches := h.reaches hs nofun (Nat.le_refl i) hrest hnext
    have hopen : (s.passing v).openBlockHere tok = s.passing v := by
      refine openBlockHere_of_lt ?_
      rw [hs.column_passing nofun (hrest.trans (List.append_assoc _ _ _)),
        show (s.passing v).margin = i + 1 from hs.margin_eq]
      exact Nat.lt_succ_self i
    rw [hopen, past_passing] at hreaches
    rw [List.length_append, Nat.add_assoc, Nat.add_assoc, ← Nat.add_assoc x.length]
    exact hreaches

end Stencil.Yaml
