import Stencil.Engine
import Stencil.Proofs.Document.Update
import Stencil.Proofs.Value.Shown

/-!
# Layers of scopes as one scope

A key is resolved in the local scopes and then in the global one. What the local scopes answer is
what their union would answer, in which an earlier scope hides the later ones.

**The place of a key** (`FoundAt`). The place of a key in a list of scopes is the first index at
which there is a scope that has it. Absent scopes count as places and have no keys. That the value
is null does not matter: a scope that has a key with a null value hides what lies behind it.

**Keys that cannot be shown.** A key that is found is named in the log, whether or not anyone reads
it. Finding a key that has no text, which takes an integer past the limit of decimal text, is a
failure.

**The union** (`merged`). The scopes that are there are put together from the last to the first; of
the entries of a later scope those stay whose keys are new.

Main result: `resolve_layers`.
-/

namespace Stencil

/-! ## Unions of documents -/

namespace Document

variable {key : Value} {d e : Document}

/-- The entries of the first document and those of the second whose keys the first one lacks. -/
def union (d e : Document) : Document := d ++ e.filter fun entry => !contains entry.1 d

/-- What has the same key is there alike. -/
theorem contains_congr {a b : Value} (h : a.sameKey b = true) (d : Document) :
    contains a d = contains b d := by
  rw [contains_eq_any, contains_eq_any]
  refine congrArg d.any (funext fun entry => ?_)
  exact Bool.eq_iff_iff.2
    ⟨fun ha => Value.sameKey_trans ha h, fun hb => Value.sameKey_trans hb (Value.sameKey_symm h)⟩

/-- Entries that are left out of a union are hidden by it. -/
theorem find?_filter_of_not_contains (h : contains key d = false) (e : Document) :
    find? key (e.filter fun entry => !contains entry.1 d) = find? key e := by
  induction e with
  | nil => rfl
  | cons entry e ih =>
    obtain ⟨k, v⟩ := entry
    by_cases hk : k.sameKey key = true
    · have hnew : contains k d = false := (contains_congr hk d).trans h
      rw [List.filter_cons_of_pos (by rw [hnew]; rfl), find?, find?, if_pos hk, if_pos hk]
    · rw [find?, if_neg hk, ← ih, List.filter_cons]
      split
      · rw [find?, if_neg hk]
      · rfl

/-- **The first document wins.** -/
theorem find?_union (key : Value) (d e : Document) :
    find? key (union d e) = (find? key d).or (find? key e) := by
  rw [union, find?_append]
  cases h : find? key d with
  | some v => rfl
  | none =>
    have hlacks : contains key d = false := by rw [contains, h, Option.isSome_none]
    rw [find?_filter_of_not_contains hlacks]

/-- The union of the scopes that are there. -/
def merged (scopes : List (Option Document)) : Document :=
  (scopes.filterMap id).foldr union []

/-- In the union a key has the value of the first scope that has it. -/
theorem find?_merged (key : Value) (scopes : List (Option Document)) :
    find? key (merged scopes) = (scopes.filterMap id).findSome? (find? key) := by
  rw [merged]
  induction scopes.filterMap id with
  | nil => rfl
  | cons d ds ih =>
    rw [List.foldr_cons, find?_union, ih, List.findSome?_cons]
    cases find? key d <;> rfl

end Document

/-! ## Places of keys -/

/-- The scope at an index has a key with a value, and no scope before it has the key. -/
structure FoundAt (scopes : List (Option Document)) (key : Value) (index : Nat) (v : Value) :
    Prop where
  here : ∃ d, scopes[index]? = some (some d) ∧ Document.find? key d = some v
  first : ∀ j < index, ∀ d, scopes[j]? = some (some d) → Document.contains key d = false

namespace FoundAt

variable {scope : Option Document} {scopes : List (Option Document)} {key v : Value} {i : Nat}

theorem head {d : Document} (h : Document.find? key d = some v) :
    FoundAt (some d :: scopes) key 0 v :=
  ⟨⟨d, rfl, h⟩, fun j hj => absurd hj (Nat.not_lt_zero j)⟩

theorem cons (hscope : ∀ d, scope = some d → Document.contains key d = false)
    (h : FoundAt scopes key i v) : FoundAt (scope :: scopes) key (i + 1) v := by
  refine ⟨h.here, fun j hj d hd => ?_⟩
  cases j with
  | zero => exact hscope d (Option.some.inj hd)
  | succ j => exact h.first j (Nat.lt_of_succ_lt_succ hj) d hd

theorem tail (h : FoundAt (scope :: scopes) key (i + 1) v) : FoundAt scopes key i v :=
  ⟨h.here, fun j hj => h.first (j + 1) (Nat.succ_lt_succ hj)⟩

/-- A scope that has the key hides the places behind it. -/
theorem exists_iff_of_find? {d : Document} {w : Value} (hd : Document.find? key d = some w) :
    (∃ i, FoundAt (some d :: scopes) key i v) ↔ w = v := by
  constructor
  · rintro ⟨_ | i, h⟩
    · obtain ⟨e, he, hv⟩ := h.here
      cases he
      exact Option.some.inj (hd.symm.trans hv)
    · have hlacks := h.first 0 (Nat.succ_pos i) d rfl
      rw [Document.contains, hd] at hlacks
      cases hlacks
  · rintro rfl
    exact ⟨0, head hd⟩

/-- An absent scope, and one without the key, hides nothing. -/
theorem exists_iff_of_lacks (hscope : ∀ d, scope = some d → Document.contains key d = false) :
    (∃ i, FoundAt (scope :: scopes) key i v) ↔ ∃ i, FoundAt scopes key i v := by
  constructor
  · rintro ⟨_ | i, h⟩
    · obtain ⟨d, hd, hv⟩ := h.here
      have hlacks := hscope d (Option.some.inj hd)
      rw [Document.contains, hv] at hlacks
      cases hlacks
    · exact ⟨i, h.tail⟩
  · rintro ⟨i, h⟩
    exact ⟨i + 1, h.cons hscope⟩

/-- The scopes that are there answer with the value in the place of the key, if it has one. -/
theorem findSome?_iff {scopes : List (Option Document)} :
    (scopes.filterMap id).findSome? (Document.find? key) = some v ↔
      ∃ i, FoundAt scopes key i v := by
  induction scopes with
  | nil =>
    constructor
    · intro h
      cases h
    · rintro ⟨i, ⟨d, hd, -⟩, -⟩
      cases hd
  | cons scope scopes ih =>
    cases scope with
    | none =>
      rw [List.filterMap_cons_none rfl, ih]
      refine (exists_iff_of_lacks ?_).symm
      intro d hd
      cases hd
    | some d =>
      rw [List.filterMap_cons_some (f := id) (b := d) rfl, List.findSome?_cons]
      cases hd : Document.find? key d with
      | some w => exact Option.some_inj.trans (exists_iff_of_find? hd).symm
      | none =>
        refine ih.trans (exists_iff_of_lacks ?_).symm
        rintro e ⟨⟩
        rw [Document.contains, hd, Option.isSome_none]

theorem findSome?_eq_none (h : ∀ i v, ¬ FoundAt scopes key i v) :
    (scopes.filterMap id).findSome? (Document.find? key) = none := by
  rw [Option.eq_none_iff_forall_ne_some]
  intro v hv
  obtain ⟨i, hi⟩ := findSome?_iff.1 hv
  exact h i v hi

end FoundAt

/-! ## Look-ups -/

namespace Environment

theorem firstWith_map_snd (key : Value) (start : Nat) (scopes : List Document) :
    (firstWith key start scopes).map Prod.snd = scopes.findSome? (Document.find? key) := by
  induction scopes generalizing start with
  | nil => rfl
  | cons scope rest ih =>
    rw [firstWith, List.findSome?_cons]
    cases Document.find? key scope with
    | none => exact ih (start + 1)
    | some v => rfl

theorem firstWith_append (key : Value) (start : Nat) (ds es : List Document) :
    firstWith key start (ds ++ es) =
      (firstWith key start ds).or (firstWith key (start + ds.length) es) := by
  induction ds generalizing start with
  | nil => rfl
  | cons d ds ih =>
    rw [List.cons_append, firstWith, firstWith]
    cases Document.find? key d with
    | some v => rfl
    | none =>
      dsimp only
      rw [ih, List.length_cons, Nat.add_right_comm, Nat.add_assoc]

theorem find?_eq (env : Environment) (key : Value) :
    env.find? key = ((env.local? key).map Prod.snd).or (env.global? key) := by
  rw [find?]
  cases env.local? key <;> rfl

/-- Only the values in the union of the local scopes count. -/
theorem local?_map_snd (env : Environment) (key : Value) :
    (env.local? key).map Prod.snd =
      if env.selector.includesLocal then Document.find? key (Document.merged env.scopes)
      else none := by
  rw [local?]
  split
  · rw [firstWith_map_snd, Document.find?_merged, present]
  · rfl

theorem shown_of_writable (h : key.holdsOversized = false) (found : Option Value) :
    shown key found = pure found := by
  have hplain : key.plain?.isNone = false := by
    rw [← Option.not_isSome, Value.isSome_plain?, h]
    rfl
  simp [shown, hplain]

theorem shown_of_oversized (h : key.holdsOversized = true) (found : Option Value) :
    shown key found = if found.isSome then .fail .unshowableKey else pure none := by
  have hplain : key.plain?.isNone = true := by
    rw [← Option.not_isSome, Value.isSome_plain?, h]
    rfl
  cases found <;> simp [shown, hplain]

/-- Resolving what can be a key finds what the layers hold, and then has to show the key. -/
theorem resolveKey_outcome (h : key.isKey = true) (env : Environment) :
    (env.resolveKey key).outcome = (shown key (env.find? key)).outcome := by
  cases key with
  | text s => rw [shown_of_writable rfl]; exact env.resolve_outcome s
  | _ => simp only [resolveKey, h, Bool.true_or, if_true]

/-- A key that is found locally is resolved without the scopes behind and the global scope. -/
theorem resolveKey_congr {env env' : Environment} (hkey : key.isKey = true)
    {found : Nat × Value} (h : env.local? key = some found) (h' : env'.local? key = some found) :
    env.resolveKey key = env'.resolveKey key := by
  have hfind : env.find? key = env'.find? key := by rw [find?, find?, h, h']
  cases key with
  | text s => rw [resolveKey, resolveKey, resolve, resolve, h, h']
  | _ => simp only [resolveKey, hkey, hfind, Bool.true_or]

theorem local?_append {env : Environment} {key : Value} {found : Nat × Value}
    (h : env.local? key = some found) (scopes : List (Option Document)) (globals : Document) :
    ({ env with scopes := env.scopes ++ scopes, globals } : Environment).local? key =
      some found := by
  unfold local? at h ⊢
  split at h
  · next hincl =>
    rw [if_pos hincl, present, List.filterMap_append, firstWith_append, ← present, h,
      Option.some_or]
  · cases h

end Environment

namespace Engine

variable {r : Request} {selector : Selector} {key : Value}

theorem resolve_eq (hsel : Selector.ofArgument r.selector = .ok selector) (key : Value) :
    resolve r key = (environment r selector).resolveKey key := by
  rw [resolve, hsel]
  exact Traced.ofExcept_ok_bind selector _

/-- The value of a key in the union of the local scopes, as far as they take part, or else in the
global scope. -/
def layered (r : Request) (selector : Selector) (key : Value) : Option Value :=
  (if selector.includesLocal then Document.find? key (Document.merged r.scopes) else none).or
    (if selector.includesGlobal then Document.find? key r.globals else none)

theorem layered_local {i : Nat} {v : Value} (hincl : selector.includesLocal = true)
    (hfound : FoundAt r.scopes key i v) : layered r selector key = some v := by
  rw [layered, if_pos hincl, Document.find?_merged, FoundAt.findSome?_iff.2 ⟨i, hfound⟩,
    Option.some_or]

theorem layered_global
    (hnone : selector.includesLocal = true → ∀ i v, ¬ FoundAt r.scopes key i v) :
    layered r selector key =
      if selector.includesGlobal then Document.find? key r.globals else none := by
  rw [layered]
  by_cases hincl : selector.includesLocal = true
  · rw [if_pos hincl, Document.find?_merged, FoundAt.findSome?_eq_none (hnone hincl),
      Option.none_or]
  · rw [if_neg hincl, Option.none_or]

theorem resolve_outcome (hsel : Selector.ofArgument r.selector = .ok selector)
    (hkey : key.isKey = true) :
    (resolve r key).outcome = (Environment.shown key (layered r selector key)).outcome := by
  rw [resolve_eq hsel, Environment.resolveKey_outcome hkey, Environment.find?_eq,
    Environment.local?_map_snd, Environment.global?]
  rfl

/-- **Layers are one scope.** A key that has a place in the local scopes has the value there, if
local scopes take part. Without a place it has the value of the global scope, if that takes part and
has one, and else none. A key that is found locally is resolved alike whatever scopes lie behind and
whatever the global scope holds. The union of the local scopes answers as the scopes do, and a key
is there exactly if it has a value. All this needs a key that can be shown: where a key is found
that cannot, resolving it fails. -/
theorem resolve_layers (hsel : Selector.ofArgument r.selector = .ok selector)
    (hkey : key.isKey = true) :
    (∀ i v, key.holdsOversized = false → selector.includesLocal = true →
      FoundAt r.scopes key i v → (resolve r key).outcome = .ok (some v)) ∧
    (key.holdsOversized = false →
      (selector.includesLocal = true → ∀ i v, ¬ FoundAt r.scopes key i v) →
      (resolve r key).outcome =
        .ok (if selector.includesGlobal then Document.find? key r.globals else none)) ∧
    (key.holdsOversized = true → (resolve r key).outcome =
      if (layered r selector key).isSome then .error .unshowableKey else .ok none) ∧
    (∀ xs ys globals i v, selector.includesLocal = true → FoundAt xs key i v →
      resolve { r with scopes := xs ++ ys, globals } key =
        resolve { r with scopes := xs } key) ∧
    (resolve r key).outcome =
      (resolve { r with scopes := [some (Document.merged r.scopes)] } key).outcome ∧
    (has r key).outcome = (resolve r key).outcome.map Option.isSome := by
  refine ⟨fun i v hshown hincl hfound => ?_, fun hshown hnone => ?_, fun hshown => ?_,
    fun xs ys globals i v hincl hfound => ?_, ?_, ?_⟩
  · rw [resolve_outcome hsel hkey, Environment.shown_of_writable hshown,
      layered_local hincl hfound]
    rfl
  · rw [resolve_outcome hsel hkey, Environment.shown_of_writable hshown, layered_global hnone]
    rfl
  · rw [resolve_outcome hsel hkey, Environment.shown_of_oversized hshown]
    split <;> rfl
  · have hvalue : ((environment { r with scopes := xs } selector).local? key).map Prod.snd =
        some v := by
      rw [Environment.local?_map_snd]
      exact (if_pos hincl).trans
        ((Document.find?_merged key xs).trans (FoundAt.findSome?_iff.2 ⟨i, hfound⟩))
    obtain ⟨found, hlocal, -⟩ := Option.map_eq_some_iff.1 hvalue
    rw [resolve_eq (r := { r with scopes := xs ++ ys, globals }) hsel,
      resolve_eq (r := { r with scopes := xs }) hsel]
    exact Environment.resolveKey_congr hkey (Environment.local?_append hlocal ys globals) hlocal
  · have hunion : Document.merged [some (Document.merged r.scopes)] = Document.merged r.scopes := by
      show Document.merged r.scopes ++ [] = Document.merged r.scopes
      exact List.append_nil _
    rw [resolve_outcome hsel hkey,
      resolve_outcome (r := { r with scopes := [some (Document.merged r.scopes)] }) hsel hkey,
      layered, layered, hunion]
  · rw [has, Traced.outcome_bind]
    rcases (resolve r key).outcome <;> rfl

/-- A null behind a hole hides the scope and the global value behind it; a key that only the global
scope has is found there. -/
theorem resolve_layers_holes :
    let scopes : List (Option Document) :=
      [none, some [(.text "a", .null)], none, some [(.text "a", .int 1), (.text "b", .int 2)]]
    let r : Request := { scopes, globals := [(.text "a", .int 3), (.text "c", .int 4)] }
    Selector.ofArgument r.selector = .ok .all ∧ (Value.text "a").isKey = true ∧
      FoundAt r.scopes (.text "a") 1 .null ∧
      (resolve r (.text "a")).outcome = .ok (some .null) ∧
      (has r (.text "a")).outcome = .ok true ∧
      (resolve r (.text "c")).outcome = .ok (some (.int 4)) := by
  intro scopes r
  have hsel : Selector.ofArgument r.selector = .ok .all := rfl
  have hkey : (Value.text "a").isKey = true := by decide
  have hfound : FoundAt r.scopes (.text "a") 1 .null :=
    .cons (fun d hd => by cases hd) (.head rfl)
  obtain ⟨hvalue, -, -, -, -, hhas⟩ := resolve_layers hsel hkey
  have ha := hvalue 1 .null rfl rfl hfound
  rw [ha] at hhas
  refine ⟨hsel, hkey, hfound, ha, hhas, (resolve_layers hsel (by decide)).2.1 rfl ?_⟩
  intro _ i v hplace
  cases FoundAt.findSome?_iff.2 ⟨i, hplace⟩

end Engine
end Stencil
