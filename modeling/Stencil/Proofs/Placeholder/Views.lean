import Stencil.Proofs.Placeholder.Scan

/-!
# One text, three views

Whether a text is one placeholder (`whole?`), whether it holds any (`occursIn`) and which ones it
holds (`scan`) are asked by three searches of their own. Here each of them is compared with what is
to be seen in the text: two percent signs with a key between them.

**A whole placeholder** is the one case in which the scan finds a single placeholder that spans the
text.

**A placeholder somewhere** (`Holds`). The search tries every percent sign in turn, and the scan goes
on behind a closing sign; nevertheless they agree, since a scan that finds nothing leaves the whole
text as a rest.

Main result: `views_agree`.
-/

namespace Stencil.Placeholder

variable {cs key : List Char}

/-! ## A whole placeholder -/

/-- A text that is one placeholder has no other scan. -/
theorem scan_tokenText (hk : IsKey key) :
    scan (Piece.tokenText key) = [⟨key, 0, (Piece.tokenText key).length⟩] := by
  have hgap : IsGap [] := isGap_of_notMem List.not_mem_nil
  have hrest : IsRest [] := isRest_of_notMem List.not_mem_nil
  have hend : Cut (0 + 0 + key.length + 2) [] [] := .rest hrest
  have hcut : Cut 0 (Piece.tokenText key) [⟨key, 0, key.length + 2⟩] := by
    simpa using Cut.token hgap hk (by simp) hend
  rw [length_tokenText]
  exact (cut_scan _).unique hcut

/-- A placeholder that spans the text is the text. -/
theorem eq_tokenText_of_scan (h : scan cs = [⟨key, 0, cs.length⟩]) :
    IsKey key ∧ cs = Piece.tokenText key := by
  have hscan := leftmostScan_scan cs
  rw [h] at hscan
  refine ⟨hscan.isKey _ List.mem_cons_self, ?_⟩
  have htext := hscan.text_eq _ List.mem_cons_self
  simpa [text, slice] using htext.symm

theorem scan_eq_singleton_iff :
    scan cs = [⟨key, 0, cs.length⟩] ↔ IsKey key ∧ cs = Piece.tokenText key := by
  constructor
  · exact eq_tokenText_of_scan
  · rintro ⟨hk, rfl⟩
    exact scan_tokenText hk

/-! ## A placeholder somewhere -/

/-- The scan finds something exactly if there is something to be found. -/
theorem scan_ne_nil_iff : scan cs ≠ [] ↔ Holds cs := by
  have hscan := leftmostScan_scan cs
  constructor
  · intro hne
    obtain ⟨p, ps, hps⟩ := List.exists_cons_of_ne_nil hne
    have hp : p ∈ scan cs := hps ▸ List.mem_cons_self
    obtain ⟨-, hstop, -⟩ := hscan.span p hp
    refine ⟨cs.take p.start, p.key, cs.drop p.stop, hscan.isKey p hp, ?_⟩
    rw [show Piece.tokenText p.key = _ from hscan.text_eq p hp, List.append_assoc,
      slice_append_drop hstop, List.take_append_drop]
  · intro hholds hnil
    rw [hnil] at hscan
    exact hscan.isRest.not_holds hholds

/-- Behind a percent sign a key and a closing sign follow. -/
theorem closes_iff : closes cs = true ↔ ∃ key after, IsKey key ∧ cs = key ++ '%' :: after := by
  constructor
  · intro h
    simp only [closes, Bool.and_eq_true, Bool.not_eq_true', List.isEmpty_eq_false_iff] at h
    obtain ⟨hkey, hdrop⟩ := h
    obtain ⟨c, after, hafter⟩ := List.exists_cons_of_ne_nil hdrop
    have hc : c = '%' := by
      have hhead := List.head_dropWhile_not (· != '%') hdrop
      simpa [hafter] using hhead
    subst hc
    refine ⟨cs.takeWhile (· != '%'), after, ⟨hkey, fun hm => ?_⟩, ?_⟩
    · simpa using List.mem_takeWhile_imp hm
    · rw [← hafter, List.takeWhile_append_dropWhile]
  · rintro ⟨key, after, hk, rfl⟩
    simp [closes, List.takeWhile_append_of_pos hk.ne_percent,
      List.dropWhile_append_of_pos hk.ne_percent, hk.1]

/-- A placeholder stands in a text at its start or behind its first character. -/
theorem holds_cons {c : Char} : Holds (c :: cs) ↔ (c = '%' ∧ closes cs = true) ∨ Holds cs := by
  rw [closes_iff]
  constructor
  · rintro ⟨before, key, after, hk, h⟩
    cases before with
    | nil =>
      obtain ⟨rfl, hcs⟩ := List.cons.inj h
      exact .inl ⟨rfl, key, after, hk, by simpa using hcs⟩
    | cons d before => exact .inr ⟨before, key, after, hk, (List.cons.inj h).2⟩
  · rintro (⟨rfl, key, after, hk, rfl⟩ | ⟨before, key, after, hk, rfl⟩)
    · exact ⟨[], key, after, hk, by simp [Piece.tokenText]⟩
    · exact ⟨c :: before, key, after, hk, rfl⟩

theorem occursIn_iff : occursIn cs = true ↔ Holds cs := by
  induction cs with
  | nil =>
    refine iff_of_false (by simp [occursIn]) ?_
    rintro ⟨before, key, after, -, h⟩
    simp [Piece.tokenText] at h
  | cons c cs ih => rw [occursIn, holds_cons, Bool.or_eq_true, Bool.and_eq_true, beq_iff_eq, ih]

/-- **The three views agree.** A text is one placeholder exactly if it is a key between two percent
signs, and exactly if the scan finds one placeholder from its start to its end. It holds a
placeholder exactly if the scan finds one, and exactly if it has two percent signs with a key between
them. -/
theorem views_agree (cs : List Char) :
    (∀ key, whole? cs = some key ↔ (key ≠ [] ∧ '%' ∉ key) ∧ cs = '%' :: key ++ ['%']) ∧
    (∀ key, (key ≠ [] ∧ '%' ∉ key) ∧ cs = '%' :: key ++ ['%'] ↔
      scan cs = [⟨key, 0, cs.length⟩]) ∧
    (occursIn cs = true ↔ scan cs ≠ []) ∧
    (scan cs ≠ [] ↔ ∃ before between after,
      (between ≠ [] ∧ '%' ∉ between) ∧ cs = before ++ ('%' :: between ++ ['%']) ++ after) :=
  ⟨fun _ => whole?_eq_some_iff, fun _ => scan_eq_singleton_iff.symm,
    occursIn_iff.trans scan_ne_nil_iff.symm, scan_ne_nil_iff⟩

/-- A key with a line break, and a run of percent signs before the text's only placeholder. -/
example :
    whole? "%a\nb%".toList = some "a\nb".toList ∧ whole? "%%a%".toList = none ∧
      occursIn "%%a%".toList = true ∧ occursIn "%%%".toList = false := by decide +kernel

end Stencil.Placeholder
