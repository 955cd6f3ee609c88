import Stencil.File.Tree
import Stencil.Proofs.Itemwise

/-!
# What saving changes

A tree holds files at locations (`content?`). Making directories changes no file, for a directory is
made only where nothing stands. Saving makes directories and then writes one file, so a save at
fault changes no file, and one that succeeds changes the file at its path and no other.

The path is followed again to find the file. That leads to the same place, for only directories are
passed on the way and what was written is no directory. What the system refuses to read is there all
the same.

A save may also be at fault because no file can have its path. That hangs on the path alone.

Main results: `content?_save_of_fault`, `content?_save` and `isUnusable_of_save`.
-/

namespace Stencil.Tree

variable {t : Tree} {here loc : List (List Char)} {e : Entry} {p : Path} {data : List UInt8}
  {a : Access}

/-! ## Accesses -/

/-- An access leads to the location of its path, unless it is refused. -/
theorem access_eq_ok_iff :
    t.access a p = .ok here ↔ t.refused? a p = none ∧ t.locate p = .ok here := by
  unfold access
  split
  · next h => simp [locate, h]
  · split <;> simp_all

theorem locate_of_access (h : t.access a p = .ok here) : t.locate p = .ok here :=
  (access_eq_ok_iff.1 h).2

/-! ## Putting an entry -/

@[simp] theorem base_put (t : Tree) (here : List (List Char)) (e : Entry) :
    (t.put here e).base = t.base := by
  unfold put
  split <;> rfl

@[simp] theorem library_put (t : Tree) (here : List (List Char)) (e : Entry) :
    (t.put here e).library = t.library := by
  unfold put
  split <;> rfl

theorem lookup_replace_self {es : List (List (List Char) × Entry)}
    (h : (es.lookup here).isSome = true) :
    (es.map fun old => if old.1 == here then (here, e) else old).lookup here = some e := by
  induction es with
  | nil => cases h
  | cons old es ih =>
    obtain ⟨k, v⟩ := old
    by_cases hk : k = here
    · simp [hk]
    · have hne : (here == k) = false := beq_eq_false_iff_ne.2 (Ne.symm hk)
      rw [List.lookup_cons, hne] at h
      have hrest := ih h
      simpa [List.lookup_cons, hk, hne] using hrest

theorem lookup_replace_of_ne {es : List (List (List Char) × Entry)} (h : loc ≠ here) :
    (es.map fun old => if old.1 == here then (here, e) else old).lookup loc = es.lookup loc := by
  have hne : (loc == here) = false := beq_eq_false_iff_ne.2 h
  induction es with
  | nil => rfl
  | cons old es ih =>
    obtain ⟨k, v⟩ := old
    simp only [beq_iff_eq] at ih
    by_cases hk : k = here
    · simp [List.lookup_cons, hk, hne, ih]
    · simp [List.lookup_cons, hk, ih]

theorem entry?_put_self (h : here ≠ []) : entry? (t.put here e) here = some e := by
  have hempty : ¬ here.isEmpty = true := by simpa using h
  unfold entry?
  rw [if_neg hempty]
  by_cases hs : (t.entries.lookup here).isSome = true
  · rw [put, if_pos hs]
    exact lookup_replace_self hs
  · rw [put, if_neg hs]
    rw [Option.not_isSome_iff_eq_none] at hs
    simp [List.lookup_append, hs]

theorem entry?_put_of_ne (h : loc ≠ here) : entry? (t.put here e) loc = t.entry? loc := by
  have hne : (loc == here) = false := beq_eq_false_iff_ne.2 h
  unfold entry?
  congr 1
  by_cases hs : (t.entries.lookup here).isSome = true
  · rw [put, if_pos hs]
    exact lookup_replace_of_ne h
  · rw [put, if_neg hs]
    simp [List.lookup_append, List.lookup_cons, hne]

theorem makeDirectory_eq_ok {u : Tree} (h : t.makeDirectory p = .ok u) :
    ∃ here, t.locate p = .ok here ∧ t.entry? here = none ∧ u = t.put here .directory := by
  unfold makeDirectory at h
  obtain ⟨here, haccess, h⟩ := bind_eq_ok_iff.1 h
  split at h
  · cases h
  · next hfree =>
    cases h
    exact ⟨here, locate_of_access haccess, Option.not_isSome_iff_eq_none.1 hfree, rfl⟩

theorem write_eq_ok {u : Tree} (h : t.write p data = .ok u) :
    ∃ here, t.locate p = .ok here ∧ t.entry? here ≠ some .directory ∧
      u = t.put here (.file data) := by
  unfold write at h
  obtain ⟨here, haccess, h⟩ := bind_eq_ok_iff.1 h
  split at h
  · cases h
  · next hdir =>
    cases h
    exact ⟨here, locate_of_access haccess, hdir, rfl⟩

/-! ## Files -/

/-- The content of the file at a location, if a file stands there. -/
def content? (t : Tree) (loc : List (List Char)) : Option (List UInt8) :=
  match t.entry? loc with
  | some (.file data) => some data
  | _ => none

theorem content?_put_file (h : here ≠ []) :
    (t.put here (.file data)).content? loc = if loc = here then some data else t.content? loc := by
  by_cases hl : loc = here
  · rw [if_pos hl, content?, hl, entry?_put_self h]
  · rw [if_neg hl, content?, entry?_put_of_ne hl, content?]

/-- A directory in a free place changes no file. -/
theorem content?_put_directory (h : t.entry? here = none) :
    (t.put here .directory).content? loc = t.content? loc := by
  have hne : here ≠ [] := by
    rintro rfl
    cases h
  by_cases hl : loc = here
  · rw [content?, content?, hl, entry?_put_self hne, h]
  · rw [content?, entry?_put_of_ne hl, content?]

/-! ## Making directories -/

section Keeping

variable {β : Type} (view : Tree → β)
  (hview : ∀ (t : Tree) (here : List (List Char)), t.entry? here = none →
    view (t.put here .directory) = view t)
include hview

theorem makeIfMissing_keeps (t : Tree) (p : Path) : view (t.makeIfMissing p).1 = view t := by
  unfold makeIfMissing
  split
  · next h =>
    obtain ⟨here, -, hfree, rfl⟩ := makeDirectory_eq_ok h
    exact hview t here hfree
  · rfl

/-- Whatever a directory in a free place leaves as it is, making directories does. -/
theorem makeAll_keeps (t : Tree) (root : List Char) (names : List (List Char)) :
    view (t.makeAll root names).1 = view t := by
  induction names generalizing t with
  | nil => exact makeIfMissing_keeps view hview t _
  | cons name outer ih =>
    unfold makeAll
    dsimp only
    split
    · have houter := ih t
      split
      · next u h =>
        rw [h] at houter
        exact (makeIfMissing_keeps view hview u _).trans houter
      · exact houter
    · exact makeIfMissing_keeps view hview t _

end Keeping

theorem content?_makeAll (t : Tree) (root : List Char) (names loc : List (List Char)) :
    (t.makeAll root names).1.content? loc = t.content? loc :=
  makeAll_keeps (fun t => t.content? loc) (fun _ _ hfree => content?_put_directory hfree) t root names

/-! ## Writing a file -/

/-- Names lead to the same place once something is put where no directory stands. -/
theorem follow_put (hhere : t.entry? here ≠ some .directory) {names from_ dest : List (List Char)}
    (h : t.follow from_ names = .ok dest) : (t.put here e).follow from_ names = .ok dest := by
  induction names generalizing from_ with
  | nil => exact h
  | cons name names ih =>
    rw [follow] at h ⊢
    split at h
    · next hdir =>
      have hne : from_ ≠ here := by
        rintro rfl
        exact hhere hdir
      rw [entry?_put_of_ne hne, hdir]
      exact ih h
    · cases h
    · cases h

theorem locate_put (hhere : t.entry? here ≠ some .directory) {dest : List (List Char)}
    (h : t.locate p = .ok dest) : (t.put here e).locate p = .ok dest := by
  unfold locate at h ⊢
  split at h
  · cases h
  · next husable =>
    rw [if_neg husable, base_put]
    exact follow_put hhere h

theorem content?_of_write {u : Tree} (h : t.write p data = .ok u) :
    ∃ here, u.locate p = .ok here ∧
      ∀ loc, u.content? loc = if loc = here then some data else t.content? loc := by
  obtain ⟨here, hlocate, hdir, rfl⟩ := write_eq_ok h
  have hne : here ≠ [] := by
    rintro rfl
    exact hdir rfl
  exact ⟨here, locate_put hdir hlocate, fun loc => content?_put_file hne⟩

/-- The file at a path can be read unless the system refuses that. -/
theorem read_of_content? (hr : t.refused? .read p = none) (hl : t.locate p = .ok here)
    (hc : t.content? here = some data) : t.read p = .ok data := by
  unfold content? at hc
  split at hc
  · next h =>
    cases hc
    rw [read, access_eq_ok_iff.2 ⟨hr, hl⟩]
    simp only [bind, Except.bind, h]
    rfl
  · cases hc

/-! ## Saving -/

/-- A save at fault changes no file. -/
theorem content?_save_of_fault (h : (t.save p data).2 ≠ none) :
    (t.save p data).1.content? loc = t.content? loc := by
  have hmade := content?_makeAll t p.root p.parent.names.reverse loc
  rw [save] at h ⊢
  rcases hall : t.makeAll p.root p.parent.names.reverse with ⟨u, _ | f⟩
  · rw [hall] at h hmade
    dsimp only at h ⊢
    rcases hw : u.write p data with f | u'
    · exact hmade
    · rw [hw] at h
      exact absurd rfl h
  · rw [hall] at hmade
    exact hmade

/-- **A save that succeeds** changes the file at its path and no other. -/
theorem content?_save (h : (t.save p data).2 = none) :
    ∃ here, (t.save p data).1.locate p = .ok here ∧
      ∀ loc, (t.save p data).1.content? loc = if loc = here then some data else t.content? loc := by
  rw [save] at h ⊢
  rcases hall : t.makeAll p.root p.parent.names.reverse with ⟨u, _ | f⟩
  · rw [hall] at h
    dsimp only at h ⊢
    rcases hw : u.write p data with f | u'
    · rw [hw] at h
      cases h
    · obtain ⟨here, hlocate, hcontent⟩ := content?_of_write hw
      refine ⟨here, hlocate, fun loc => ?_⟩
      have hmade := content?_makeAll t p.root p.parent.names.reverse loc
      rw [hall] at hmade
      rw [hcontent, ← hmade]
  · rw [hall] at h
    cases h

/-! ## The library -/

/-- The library stays the same. -/
theorem library_save (t : Tree) (p : Path) (data : List UInt8) :
    (t.save p data).1.library = t.library := by
  have hmade := makeAll_keeps Tree.library (fun t here _ => library_put t here _) t p.root
    p.parent.names.reverse
  rw [save]
  rcases hall : t.makeAll p.root p.parent.names.reverse with ⟨u, _ | f⟩
  · rw [hall] at hmade
    dsimp only at hmade ⊢
    rcases hw : u.write p data with f | u'
    · exact hmade
    · obtain ⟨here, -, -, rfl⟩ := write_eq_ok hw
      exact (library_put u here _).trans hmade
  · rw [hall] at hmade
    exact hmade

/-! ## Paths that no file can have -/

theorem follow_ne_unusable {names : List (List Char)} : t.follow here names ≠ .error .unusable := by
  intro h
  induction names generalizing here with
  | nil => cases h
  | cons name names ih =>
    rw [follow] at h
    split at h
    · exact ih h
    · cases h
    · cases h

theorem isUnusable_of_locate (h : t.locate p = .error .unusable) : p.isUnusable = true := by
  unfold locate at h
  split at h
  · assumption
  · exact absurd h follow_ne_unusable

theorem isUnusable_of_access (h : t.access a p = .error .unusable) : p.isUnusable = true := by
  unfold access at h
  split at h
  · assumption
  · split at h
    · cases h
    · exact isUnusable_of_locate h

/-- A path with all names of an unusable one is unusable. -/
theorem isUnusable_of_subset {q : Path} (h : q.names ⊆ p.names) (hq : q.isUnusable = true) :
    p.isUnusable = true := by
  obtain ⟨name, hname, hnul⟩ := List.any_eq_true.1 hq
  exact List.any_eq_true.2 ⟨name, h hname, hnul⟩

theorem isUnusable_of_makeDirectory (h : t.makeDirectory p = .error .unusable) :
    p.isUnusable = true := by
  unfold makeDirectory at h
  obtain haccess | ⟨here, -, h⟩ := bind_eq_error_iff.1 h
  · exact isUnusable_of_access haccess
  · split at h <;> cases h

/-- What is left of an error is no other error that a path is unusable. -/
theorem eq_unusable_of_remaining {f : FileError} (h : t.remaining p f = some .unusable) :
    f = .unusable := by
  unfold remaining at h
  split at h
  · next hmissing =>
    cases h
    cases hmissing
  · split at h
    · split at h
      · cases h
      · exact Option.some.inj h
    · cases h

theorem isUnusable_of_makeIfMissing {f : FileFault} (h : (t.makeIfMissing p).2 = some f)
    (hf : f.error = .unusable) : p.isUnusable = true := by
  unfold makeIfMissing at h
  split at h
  · cases h
  · next e hmake =>
    obtain ⟨e', hremaining, rfl⟩ := Option.map_eq_some_iff.1 h
    subst hf
    rw [eq_unusable_of_remaining hremaining] at hmake
    exact isUnusable_of_makeDirectory hmake

theorem isUnusable_of_makeAll {f : FileFault} {root : List Char} {names : List (List Char)}
    (h : (t.makeAll root names).2 = some f) (hf : f.error = .unusable) :
    (⟨root, names.reverse⟩ : Path).isUnusable = true := by
  induction names generalizing t with
  | nil => exact isUnusable_of_makeIfMissing h hf
  | cons name outer ih =>
    unfold makeAll at h
    dsimp only at h
    split at h
    · have houter (hmade : (t.makeAll root outer).2 = some f) :
          (⟨root, (name :: outer).reverse⟩ : Path).isUnusable = true := by
        refine isUnusable_of_subset ?_ (ih hmade)
        rw [List.reverse_cons]
        exact List.subset_append_left _ _
      split at h
      · exact isUnusable_of_makeIfMissing h hf
      · exact houter h
    · exact isUnusable_of_makeIfMissing h hf

theorem isUnusable_of_write (h : t.write p data = .error .unusable) : p.isUnusable = true := by
  unfold write at h
  obtain haccess | ⟨here, -, h⟩ := bind_eq_error_iff.1 h
  · exact isUnusable_of_access haccess
  · split at h <;> cases h

/-- Only the path of a save itself makes it one that no file can have. -/
theorem isUnusable_of_save {f : FileFault} (h : (t.save p data).2 = some f)
    (hf : f.error = .unusable) : p.isUnusable = true := by
  rw [save] at h
  rcases hall : t.makeAll p.root p.parent.names.reverse with ⟨u, _ | g⟩
  · rw [hall] at h
    dsimp only at h
    rcases hw : u.write p data with e | u'
    · rw [hw] at h
      cases h
      subst hf
      exact isUnusable_of_write hw
    · rw [hw] at h
      cases h
  · rw [hall] at h
    cases h
    have hparent := isUnusable_of_makeAll (congrArg Prod.snd hall) hf
    rw [List.reverse_reverse] at hparent
    exact isUnusable_of_subset (List.dropLast_subset _) hparent

end Stencil.Tree
