import Mathlib.Data.List.TakeWhile
import Stencil.Placeholder

/-!
# The leftmost scan

`scan` runs through a text with a literal and a possible opening in its hands. Here it is compared
with what a reader sees in the text alone: some spans, what stands in them, and what stands between
them.

**Keys, gaps and rests.** A key has a character and no percent sign (`IsKey`). In the gap in front
of a placeholder the percent signs stand in one run at its end (`IsGap`), and in the rest behind the
last placeholder they stand in one run at any place (`IsRest`): two runs with something between them
would be a placeholder.

**The scan of a text** (`LeftmostScan`) is a list of placeholders whose spans hold their texts, lie
in order without overlap, and leave only gaps and a rest between them.

**Cuts** (`Cut`). The same as an inductive relation that cuts a gap and a placeholder off the front
of a text. Every text has a cut, which `piecesFrom` finds, and no text has two: the first run of
percent signs decides where the first placeholder begins, and the next percent sign where it ends.

Main results: `existsUnique_leftmostScan`, and `whole?_eq_some_iff` for texts that are one
placeholder.
-/

namespace Stencil.Placeholder

/-! ## Keys, gaps and rests -/

/-- What stands between the signs of a placeholder. -/
def IsKey (key : List Char) : Prop := key ≠ [] ∧ '%' ∉ key

/-- What stands in front of a placeholder: percent signs only in one run that touches it. -/
def IsGap (cs : List Char) : Prop :=
  ∃ clear n, cs = clear ++ List.replicate n '%' ∧ '%' ∉ clear

/-- What stands behind the last placeholder: percent signs only in one run. -/
def IsRest (cs : List Char) : Prop :=
  ∃ clear n after, cs = clear ++ List.replicate n '%' ++ after ∧ '%' ∉ clear ∧ '%' ∉ after

theorem isGap_of_notMem {cs : List Char} (h : '%' ∉ cs) : IsGap cs := ⟨cs, 0, by simp, h⟩

theorem isRest_of_notMem {cs : List Char} (h : '%' ∉ cs) : IsRest cs :=
  ⟨cs, 0, [], by simp, h, by simp⟩

theorem IsGap.snoc {cs : List Char} (h : IsGap cs) : IsGap (cs ++ ['%']) := by
  obtain ⟨clear, n, rfl, hc⟩ := h
  exact ⟨clear, n + 1, by simp [List.replicate_succ'], hc⟩

/-- A gap and a percent sign that nothing closes are a rest. -/
theorem IsGap.isRest_append {cs after : List Char} (h : IsGap cs) (ha : '%' ∉ after) :
    IsRest (cs ++ '%' :: after) := by
  obtain ⟨clear, n, rfl, hc⟩ := h
  exact ⟨clear, n + 1, after, by simp [List.replicate_succ'], hc, ha⟩

theorem IsKey.head?_ne {key : List Char} (h : IsKey key) (cs : List Char) :
    (key ++ cs).head? ≠ some '%' := by
  obtain ⟨hne, hmem⟩ := h
  cases key with
  | nil => exact absurd rfl hne
  | cons k ks =>
    intro hk
    cases hk
    exact hmem List.mem_cons_self

theorem IsKey.ne_percent {key : List Char} (h : IsKey key) : ∀ c ∈ key, (c != '%') = true := by
  intro c hc
  rw [bne_iff_ne]
  rintro rfl
  exact h.2 hc

/-- A placeholder stands somewhere in a text. -/
def Holds (cs : List Char) : Prop :=
  ∃ before key after, IsKey key ∧ cs = before ++ Piece.tokenText key ++ after

/-- Behind a percent sign that begins a placeholder comes another one, also behind a whole run. -/
theorem percent_mem_dropWhile (before after : List Char) {key : List Char} (hk : IsKey key) :
    '%' ∈ (before ++ Piece.tokenText key ++ after).dropWhile (· == '%') := by
  induction before with
  | nil =>
    obtain ⟨hne, hmem⟩ := hk
    cases key with
    | nil => exact absurd rfl hne
    | cons k ks =>
      have hk : k ≠ '%' := fun h => hmem (h ▸ List.mem_cons_self)
      simp [Piece.tokenText, hk]
  | cons c before ih =>
    by_cases hc : c = '%'
    · subst hc; simpa using ih
    · simp [hc, Piece.tokenText]

/-- A text with percent signs in one run only holds no placeholder. -/
theorem IsRest.not_holds {cs : List Char} (h : IsRest cs) : ¬ Holds cs := by
  obtain ⟨clear, n, after, rfl, hc, ha⟩ := h
  rintro ⟨before, key, behind, hk, h⟩
  induction clear generalizing before with
  | nil =>
    have hrun := percent_mem_dropWhile before behind hk
    rw [← h, List.nil_append, List.dropWhile_append_of_pos (by simp)] at hrun
    exact ha ((List.dropWhile_suffix _).mem hrun)
  | cons c clear ih =>
    simp only [List.mem_cons, not_or] at hc
    cases before with
    | nil => exact hc.1 (List.cons.inj h).1.symm
    | cons d before => exact ih hc.2 before (List.cons.inj h).2

theorem IsGap.isRest {cs : List Char} (h : IsGap cs) : IsRest cs := by
  obtain ⟨clear, n, rfl, hc⟩ := h
  exact ⟨clear, n, [], by simp, hc, List.not_mem_nil⟩

/-! ## Scans of a text -/

/-- The part of a text between two places. -/
def slice (cs : List Char) (start stop : Nat) : List Char := (cs.drop start).take (stop - start)

/-- The gaps in front of placeholders, from a place on. -/
def gaps (cs : List Char) (start : Nat) : List Placeholder → List (List Char)
  | [] => []
  | p :: ps => slice cs start p.start :: gaps cs p.stop ps

/-- What stands behind the last placeholder. -/
def rest (cs : List Char) (start : Nat) : List Placeholder → List Char
  | [] => cs.drop start
  | p :: ps => rest cs p.stop ps

/-- A text from a place on, with other texts in the spans of its placeholders. -/
def weave (cs : List Char) (start : Nat) : List Placeholder → List (List Char) → List Char
  | p :: ps, r :: rs => slice cs start p.start ++ r ++ weave cs p.stop ps rs
  | _, _ => cs.drop start

/-- The placeholders of a text from a place on. -/
structure ScanFrom (start : Nat) (cs : List Char) (ps : List Placeholder) : Prop where
  isKey : ∀ p ∈ ps, IsKey p.key
  /-- Every span lies in the text, behind the start. -/
  span : ∀ p ∈ ps, start ≤ p.start ∧ p.start ≤ p.stop ∧ p.stop ≤ cs.length
  text_eq : ∀ p ∈ ps, p.text = slice cs p.start p.stop
  /-- The spans come in order and do not overlap. -/
  ordered : ps.Pairwise fun p q => p.stop ≤ q.start
  /-- Gaps, placeholders and rest make up the text. -/
  weave_eq : weave cs start ps (ps.map text) = cs.drop start
  isGap : ∀ gap ∈ gaps cs start ps, IsGap gap
  isRest : IsRest (rest cs start ps)

/-- The placeholders of a text, cut off from left to right. -/
def LeftmostScan (cs : List Char) (ps : List Placeholder) : Prop := ScanFrom 0 cs ps

theorem slice_append_drop {cs : List Char} {start stop : Nat} (h : start ≤ stop) :
    slice cs start stop ++ cs.drop stop = cs.drop start := by
  have hd : cs.drop stop = (cs.drop start).drop (stop - start) := by
    rw [List.drop_drop]; congr 1; omega
  rw [slice, hd, List.take_append_drop]

theorem slice_append_slice {cs : List Char} {start place stop : Nat} (h : start ≤ place)
    (h' : place ≤ stop) : slice cs start place ++ slice cs place stop = slice cs start stop := by
  have hlen : stop - start = (place - start) + (stop - place) := by omega
  have hplace : start + (place - start) = place := by omega
  rw [slice, slice, slice, hlen, List.take_add, List.drop_drop, hplace]

theorem length_slice {cs : List Char} {start stop : Nat} (h : stop ≤ cs.length) :
    (slice cs start stop).length = stop - start := by
  rw [slice, List.length_take, List.length_drop]; omega

theorem slice_of_drop_eq {cs a b : List Char} {start : Nat} (h : cs.drop start = a ++ b) :
    slice cs start (start + a.length) = a := by
  rw [slice, h, Nat.add_sub_cancel_left, List.take_left]

theorem drop_of_drop_eq {cs a b : List Char} {start : Nat} (h : cs.drop start = a ++ b) :
    cs.drop (start + a.length) = b := by
  rw [← List.drop_drop, h, List.drop_left]

@[simp] theorem slice_self (cs : List Char) (start : Nat) : slice cs start start = [] := by
  simp [slice]

/-! ## Cuts -/

/-- A text that begins at a place, cut into gaps and placeholders from left to right. -/
inductive Cut : Nat → List Char → List Placeholder → Prop
  | rest {start : Nat} {cs : List Char} : IsRest cs → Cut start cs []
  | token {start : Nat} {cs gap key tail : List Char} {ps : List Placeholder} :
      IsGap gap → IsKey key → cs = gap ++ Piece.tokenText key ++ tail →
      Cut (start + gap.length + key.length + 2) tail ps →
      Cut start cs
        (⟨key, start + gap.length, start + gap.length + key.length + 2⟩ :: ps)

@[simp] theorem length_tokenText (key : List Char) :
    (Piece.tokenText key).length = key.length + 2 := by
  simp [Piece.tokenText]

/-! ### No text has two cuts -/

/-- The first percent sign of a text stands at one place only. -/
theorem first_percent_inj {a b x y : List Char} (ha : '%' ∉ a) (hb : '%' ∉ b)
    (h : a ++ '%' :: x = b ++ '%' :: y) : a = b ∧ x = y := by
  induction a generalizing b with
  | nil =>
    cases b with
    | nil => exact ⟨rfl, (List.cons.inj h).2⟩
    | cons c b => exact absurd ((List.cons.inj h).1 ▸ List.mem_cons_self) hb
  | cons c a ih =>
    cases b with
    | nil => exact absurd ((List.cons.inj h).1 ▸ List.mem_cons_self) ha
    | cons d b =>
      obtain ⟨rfl, htail⟩ := List.cons.inj h
      obtain ⟨rfl, rfl⟩ := ih (fun hm => ha (List.mem_cons_of_mem _ hm))
        (fun hm => hb (List.mem_cons_of_mem _ hm)) htail
      exact ⟨rfl, rfl⟩

/-- A run of one character that is followed by another one ends at one place only. -/
theorem replicate_append_inj {c : Char} {m n : Nat} {x y : List Char} (hx : x.head? ≠ some c)
    (hy : y.head? ≠ some c) (h : List.replicate m c ++ x = List.replicate n c ++ y) :
    m = n ∧ x = y := by
  induction m generalizing n with
  | zero =>
    cases n with
    | zero => exact ⟨rfl, h⟩
    | succ n => exact absurd (congrArg List.head? h) hx
  | succ m ih =>
    cases n with
    | zero => exact absurd (congrArg List.head? h).symm hy
    | succ n =>
      obtain ⟨rfl, rfl⟩ := ih (List.cons.inj h).2
      exact ⟨rfl, rfl⟩

/-- A gap and a placeholder, with the whole run of percent signs that ends the gap brought
together. -/
theorem gap_append_token (clear key tail : List Char) (n : Nat) :
    clear ++ List.replicate n '%' ++ Piece.tokenText key ++ tail =
      clear ++ '%' :: (List.replicate n '%' ++ (key ++ '%' :: tail)) := by
  have hrun : List.replicate n '%' ++ ['%'] = '%' :: List.replicate n '%' := by
    rw [← List.replicate_succ', List.replicate_succ]
  calc
    _ = clear ++ (List.replicate n '%' ++ ['%']) ++ (key ++ '%' :: tail) := by
      simp [Piece.tokenText]
    _ = _ := by rw [hrun]; simp

/-- The first gap and the first placeholder are told by the text. -/
theorem token_unique {gap gap' key key' tail tail' : List Char} (hg : IsGap gap)
    (hg' : IsGap gap') (hk : IsKey key) (hk' : IsKey key')
    (h : gap ++ Piece.tokenText key ++ tail = gap' ++ Piece.tokenText key' ++ tail') :
    gap = gap' ∧ key = key' ∧ tail = tail' := by
  obtain ⟨clear, n, rfl, hc⟩ := hg
  obtain ⟨clear', n', rfl, hc'⟩ := hg'
  rw [gap_append_token, gap_append_token] at h
  obtain ⟨rfl, hrun⟩ := first_percent_inj hc hc' h
  obtain ⟨rfl, hkeys⟩ := replicate_append_inj (hk.head?_ne _) (hk'.head?_ne _) hrun
  obtain ⟨rfl, rfl⟩ := first_percent_inj hk.2 hk'.2 hkeys
  exact ⟨rfl, rfl, rfl⟩

/-- A rest holds no placeholder behind a gap. -/
theorem token_ne_rest {gap key tail : List Char} (hg : IsGap gap) (hk : IsKey key) :
    ¬ IsRest (gap ++ Piece.tokenText key ++ tail) := by
  rintro ⟨clear', n', after, h, hc', ha⟩
  obtain ⟨clear, n, rfl, hc⟩ := hg
  rw [gap_append_token] at h
  have hafter : after.head? ≠ some '%' := fun hh => ha (List.mem_of_mem_head? hh)
  cases n' with
  | zero =>
    have hmem : '%' ∈ clear' ++ List.replicate 0 '%' ++ after := by rw [← h]; simp
    simp [hc', ha] at hmem
  | succ n' =>
    rw [List.replicate_succ, List.append_assoc, List.cons_append] at h
    obtain ⟨-, hrun⟩ := first_percent_inj hc hc' h
    obtain ⟨-, rfl⟩ := replicate_append_inj (hk.head?_ne _) hafter hrun
    exact ha (by simp)

theorem Cut.unique {start : Nat} {cs : List Char} {ps qs : List Placeholder}
    (h : Cut start cs ps) (h' : Cut start cs qs) : ps = qs := by
  induction h generalizing qs with
  | rest hr =>
    cases h' with
    | rest => rfl
    | token hg hk hcs _ => subst hcs; exact absurd hr (token_ne_rest hg hk)
  | token hg hk hcs _ ih =>
    cases h' with
    | rest hr => subst hcs; exact absurd hr (token_ne_rest hg hk)
    | token hg' hk' hcs' ht' =>
      obtain ⟨rfl, rfl, rfl⟩ := token_unique hg hg' hk hk' (hcs.symm.trans hcs')
      rw [ih ht']

/-! ### The scan is a cut -/

/-- What `piecesFrom` holds in its hands: a literal without percent sign, or a gap and, behind a
percent sign, what may become a key. -/
def Opened (before : List Char) : Option (List Char) → Prop
  | none => '%' ∉ before
  | some key => IsGap before.reverse ∧ '%' ∉ key

/-- The text of an opening. -/
def openedText : Option (List Char) → List Char
  | none => []
  | some key => '%' :: key.reverse

@[simp] theorem locate_literal? (start : Nat) (reversed : List Char) (ps : List Piece) :
    locate start (literal? reversed ++ ps) = locate (start + reversed.length) ps := by
  cases reversed <;> simp [literal?, locate]

@[simp] theorem locate_literal?_nil (start : Nat) (reversed : List Char) :
    locate start (literal? reversed) = [] := by
  cases reversed <;> simp [literal?, locate]

/-- **The scanner's invariant.** Whatever `piecesFrom` holds, it goes on to a cut of all the text
it has not yet given away. -/
theorem cut_piecesFrom (before : List Char) (open? : Option (List Char)) (cs : List Char)
    (start : Nat) (h : Opened before open?) :
    Cut start (before.reverse ++ openedText open? ++ cs)
      (locate start (piecesFrom before open? cs)) := by
  fun_induction piecesFrom before open? cs generalizing start with
  | case1 before =>
    rw [locate_literal?_nil]
    exact .rest (isRest_of_notMem (by simpa [openedText, Opened] using h))
  | case2 before key =>
    rw [locate_literal?_nil]
    obtain ⟨hg, hk⟩ := h
    have hr := hg.isRest_append (show '%' ∉ key.reverse by simpa using hk)
    exact .rest (by simpa [openedText] using hr)
  | case3 before cs ih =>
    have ho : Opened before (some []) :=
      ⟨isGap_of_notMem (by simpa [Opened] using h), List.not_mem_nil⟩
    simpa [openedText] using ih start ho
  | case4 before c cs hc ih =>
    have ho : Opened (c :: before) none := by
      simpa [Opened, Ne.symm hc] using h
    simpa [openedText] using ih start ho
  | case5 before cs ih =>
    have ho : Opened ('%' :: before) (some []) := ⟨by simpa using h.1.snoc, List.not_mem_nil⟩
    simpa [openedText] using ih start ho
  | case6 before c cs hc ih =>
    have ho : Opened before (some [c]) := ⟨h.1, by simpa using Ne.symm hc⟩
    simpa [openedText] using ih start ho
  | case7 before k key cs ih =>
    -- The key is complete: a gap and a placeholder are cut off, and the scan begins anew.
    obtain ⟨hg, hk⟩ := h
    have hkey : IsKey (k :: key).reverse := ⟨by simp, by rwa [List.mem_reverse]⟩
    have htail := ih (start + before.reverse.length + (k :: key).reverse.length + 2)
      (show Opened [] none from List.not_mem_nil)
    rw [locate_literal?, locate]
    simpa [openedText, Piece.tokenText] using Cut.token hg hkey rfl htail
  | case8 before k key c cs hc ih =>
    have ho : Opened before (some (c :: k :: key)) := ⟨h.1, by simpa [Ne.symm hc] using h.2⟩
    simpa [openedText] using ih start ho

theorem cut_scan (cs : List Char) : Cut 0 cs (scan cs) := by
  simpa [openedText, scan, pieces] using cut_piecesFrom [] none cs 0 List.not_mem_nil

/-! ## Scans are cuts -/

@[simp] theorem scanFrom_nil {start : Nat} {cs : List Char} :
    ScanFrom start cs [] ↔ IsRest (cs.drop start) :=
  ⟨fun h => h.isRest, fun h =>
    ⟨by simp, by simp, by simp, .nil, by simp [weave], by simp [gaps], h⟩⟩

theorem ScanFrom.tail {start : Nat} {cs : List Char} {p : Placeholder} {ps : List Placeholder}
    (h : ScanFrom start cs (p :: ps)) : ScanFrom p.stop cs ps where
  isKey q hq := h.isKey q (List.mem_cons_of_mem _ hq)
  span q hq :=
    ⟨List.rel_of_pairwise_cons h.ordered hq, (h.span q (List.mem_cons_of_mem _ hq)).2⟩
  text_eq q hq := h.text_eq q (List.mem_cons_of_mem _ hq)
  ordered := h.ordered.of_cons
  weave_eq := by
    obtain ⟨hstart, hstop, -⟩ := h.span p List.mem_cons_self
    have hw := h.weave_eq
    rw [List.map_cons, weave, h.text_eq p List.mem_cons_self, ← slice_append_drop hstart,
      ← slice_append_drop hstop, List.append_assoc] at hw
    exact List.append_cancel_left (List.append_cancel_left hw)
  isGap gap hg := h.isGap gap (List.mem_cons_of_mem _ hg)
  isRest := h.isRest

/-- A gap and a placeholder in front of a scan. -/
theorem ScanFrom.cons {start : Nat} {cs : List Char} {p : Placeholder} {ps : List Placeholder}
    (hk : IsKey p.key) (hs : start ≤ p.start ∧ p.start ≤ p.stop ∧ p.stop ≤ cs.length)
    (ht : p.text = slice cs p.start p.stop) (hg : IsGap (slice cs start p.start))
    (h : ScanFrom p.stop cs ps) : ScanFrom start cs (p :: ps) where
  isKey := List.forall_mem_cons.2 ⟨hk, h.isKey⟩
  span := List.forall_mem_cons.2 ⟨hs, fun q hq => by have := h.span q hq; omega⟩
  text_eq := List.forall_mem_cons.2 ⟨ht, h.text_eq⟩
  ordered := .cons (fun q hq => (h.span q hq).1) h.ordered
  weave_eq := by
    rw [List.map_cons, weave, h.weave_eq, ht, List.append_assoc, slice_append_drop hs.2.1,
      slice_append_drop hs.1]
  isGap := List.forall_mem_cons.2 ⟨hg, h.isGap⟩
  isRest := h.isRest

theorem ScanFrom.cut {start : Nat} {cs : List Char} {ps : List Placeholder}
    (h : ScanFrom start cs ps) : Cut start (cs.drop start) ps := by
  induction ps generalizing start with
  | nil => exact .rest (scanFrom_nil.1 h)
  | cons p ps ih =>
    obtain ⟨hstart, hstop, hlen⟩ := h.span p List.mem_cons_self
    have htext := h.text_eq p List.mem_cons_self
    have hgap := h.isGap _ List.mem_cons_self
    have hkey : p.stop = p.start + p.key.length + 2 := by
      have := congrArg List.length htext
      rw [Placeholder.text, length_tokenText, length_slice hlen] at this
      omega
    have hplace : start + (slice cs start p.start).length = p.start := by
      rw [length_slice (Nat.le_trans hstop hlen)]; omega
    have hp : p = ⟨p.key, start + (slice cs start p.start).length,
        start + (slice cs start p.start).length + p.key.length + 2⟩ := by
      rw [hplace, ← hkey]
    have hcs : cs.drop start =
        slice cs start p.start ++ Piece.tokenText p.key ++ cs.drop p.stop := by
      rw [show Piece.tokenText p.key = _ from htext, List.append_assoc,
        slice_append_drop hstop, slice_append_drop hstart]
    rw [hp]
    refine .token hgap (h.isKey p List.mem_cons_self) hcs ?_
    rw [hplace, ← hkey]
    exact ih h.tail

theorem Cut.scanFrom {start : Nat} {cs tail : List Char} {ps : List Placeholder}
    (h : Cut start tail ps) (hs : start ≤ cs.length) (hd : cs.drop start = tail) :
    ScanFrom start cs ps := by
  induction h with
  | rest hr => exact scanFrom_nil.2 (hd ▸ hr)
  | @token start _ gap key tail ps hg hk hcs _ ih =>
    rw [hcs, List.append_assoc] at hd
    have hkey := drop_of_drop_eq hd
    have hlen := congrArg List.length hd
    simp only [List.length_drop, List.length_append, length_tokenText] at hlen
    have hstop : start + gap.length + key.length + 2 ≤ cs.length := by omega
    have htail : cs.drop (start + gap.length + key.length + 2) = tail := by
      have := drop_of_drop_eq hkey
      rwa [length_tokenText] at this
    refine .cons hk ⟨by simp only; omega, by simp only; omega, hstop⟩ ?_ ?_ (ih hstop htail)
    · have := slice_of_drop_eq hkey
      rw [length_tokenText] at this
      exact this.symm
    · exact (slice_of_drop_eq hd).symm ▸ hg

/-- The scan has the form that tells placeholders from literals. -/
theorem leftmostScan_scan (cs : List Char) : LeftmostScan cs (scan cs) :=
  (cut_scan cs).scanFrom (Nat.zero_le _) rfl

/-- Nothing but the scan has this form. -/
theorem LeftmostScan.eq_scan {cs : List Char} {ps : List Placeholder} (h : LeftmostScan cs ps) :
    ps = scan cs :=
  h.cut.unique (cut_scan cs)

/-- **The scan is the leftmost one.** Of all lists of placeholders `scan` alone is a leftmost scan
of the text, and neither a gap nor the rest holds a placeholder that it has missed. -/
theorem existsUnique_leftmostScan (cs : List Char) :
    LeftmostScan cs (scan cs) ∧ (∀ ps, LeftmostScan cs ps → ps = scan cs) ∧
      ∀ part ∈ rest cs 0 (scan cs) :: gaps cs 0 (scan cs), ¬ Holds part := by
  have hscan := leftmostScan_scan cs
  refine ⟨hscan, fun ps h => h.eq_scan, List.forall_mem_cons.2 ⟨hscan.isRest.not_holds, ?_⟩⟩
  intro gap hg
  exact (hscan.isGap gap hg).isRest.not_holds

/-! ## Texts that are one placeholder -/

theorem whole?_tokenText {key : List Char} (hk : IsKey key) :
    whole? (Piece.tokenText key) = some key := by
  simp [whole?, Piece.tokenText, List.takeWhile_append_of_pos hk.ne_percent,
    List.dropWhile_append_of_pos hk.ne_percent, hk.1]

theorem whole?_eq_some_iff {cs key : List Char} :
    whole? cs = some key ↔ IsKey key ∧ cs = Piece.tokenText key := by
  refine ⟨fun h => ?_, fun ⟨hk, hcs⟩ => hcs ▸ whole?_tokenText hk⟩
  unfold whole? at h
  split at h
  · rename_i cs
    simp only [Option.ite_none_right_eq_some, Bool.and_eq_true, beq_iff_eq] at h
    obtain ⟨⟨hne, hdrop⟩, hkey⟩ := h
    cases hkey
    refine ⟨⟨by simpa using hne, fun hm => by simpa using List.mem_takeWhile_imp hm⟩, ?_⟩
    rw [Piece.tokenText, List.cons_append, ← hdrop, List.takeWhile_append_dropWhile]
  · cases h

end Stencil.Placeholder
