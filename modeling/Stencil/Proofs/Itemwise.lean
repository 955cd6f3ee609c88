import Mathlib.Data.List.Forall2
import Stencil.Traced

/-!
# Working through a list

A function that may fail is applied to the items of a list in order, up to the first failure.

`Itemwise f xs build y` says that `y` comes about in this way, without saying how it is computed: if
every item has a result, `y` is built from the results, and `y` is an error exactly if some item
fails whose predecessors do not, with the error of that item. By `itemwise_iff` this fixes `y`.
-/

namespace Stencil

variable {α β γ ε : Type}

/-- `y` is what `build` makes of the results of the items, or the error of the first item that has
none. -/
structure Itemwise (f : α → Except ε β) (xs : List α) (build : List β → γ) (y : Except ε γ) :
    Prop where
  ok : ∀ ws, List.Forall₂ (fun x w => f x = .ok w) xs ws → y = .ok (build ws)
  error : ∀ e, y = .error e ↔ ∃ before x after,
    xs = before ++ x :: after ∧ (∀ b ∈ before, ∃ w, f b = .ok w) ∧ f x = .error e

theorem map_eq_error_iff (g : β → γ) {y : Except ε β} {e : ε} :
    y.map g = .error e ↔ y = .error e := by
  cases y <;> simp [Except.map]

theorem map_eq_ok_iff (g : β → γ) {y : Except ε β} {c : γ} :
    y.map g = .ok c ↔ ∃ b, y = .ok b ∧ g b = c := by
  cases y <;> simp [Except.map]

theorem bind_eq_ok_iff {y : Except ε β} {f : β → Except ε γ} {c : γ} :
    (y >>= f) = .ok c ↔ ∃ b, y = .ok b ∧ f b = .ok c := by
  cases y <;> simp [bind, Except.bind]

theorem bind_eq_error_iff {y : Except ε β} {f : β → Except ε γ} {e : ε} :
    (y >>= f) = .error e ↔ y = .error e ∨ ∃ b, y = .ok b ∧ f b = .error e := by
  cases y <;> simp [bind, Except.bind]

/-- A step that only wraps a result has one exactly if there is one to wrap. -/
theorem exists_bind_pure_iff {y : Except ε β} {g : β → γ} :
    (∃ c, (do let b ← y; return g b) = .ok c) ↔ ∃ b, y = .ok b := by
  cases y <;> simp [bind, Except.bind, pure, Except.pure]

theorem toOption_eq_some_iff {y : Except ε β} {b : β} : y.toOption = some b ↔ y = .ok b := by
  cases y <;> simp [Except.toOption]

theorem mapM_congr {f g : α → Except ε β} {xs : List α} (h : ∀ x ∈ xs, f x = g x) :
    xs.mapM f = xs.mapM g := by
  induction xs with
  | nil => rfl
  | cons x xs ih =>
    obtain ⟨hx, hxs⟩ := List.forall_mem_cons.1 h
    rw [List.mapM_cons, List.mapM_cons, hx, ih hxs]

theorem mapM_cons_ok {f : α → Except ε β} {x : α} {w : β} (h : f x = .ok w) (xs : List α) :
    (x :: xs).mapM f = (xs.mapM f).map (w :: ·) := by
  rw [List.mapM_cons, h]
  rcases List.mapM f xs with _ | ws <;> rfl

theorem mapM_cons_error {f : α → Except ε β} {x : α} {e : ε} (h : f x = .error e) (xs : List α) :
    (x :: xs).mapM f = .error e := by
  rw [List.mapM_cons, h]; rfl

theorem mapM_eq_ok_iff {f : α → Except ε β} {xs : List α} {ws : List β} :
    xs.mapM f = .ok ws ↔ List.Forall₂ (fun x w => f x = .ok w) xs ws := by
  induction xs generalizing ws with
  | nil => cases ws <;> simp [pure, Except.pure]
  | cons x xs ih =>
    rcases hx : f x with e | w
    · rw [mapM_cons_error hx]
      cases ws <;> simp [hx]
    · rw [mapM_cons_ok hx]
      rcases hxs : xs.mapM f with e | ws'
      · cases ws <;> simp [Except.map, hx, ← ih, hxs]
      · cases ws <;> simp [Except.map, hx, ← ih, hxs]

/-- Every result is the result of an item. -/
theorem exists_of_mapM_ok {f : α → Except ε β} {xs : List α} {ws : List β}
    (h : xs.mapM f = .ok ws) : ∀ w ∈ ws, ∃ x ∈ xs, f x = .ok w := by
  intro w hw
  have hresults := mapM_eq_ok_iff.1 h
  clear h
  induction hresults with
  | nil => cases hw
  | cons hx _ ih =>
    rcases List.mem_cons.1 hw with rfl | hw
    · exact ⟨_, List.mem_cons_self, hx⟩
    · obtain ⟨x, hmem, hx⟩ := ih hw
      exact ⟨x, List.mem_cons_of_mem _ hmem, hx⟩

/-- Every item has a result. -/
theorem forall_ok_of_mapM {f : α → Except ε β} {xs : List α} {ws : List β}
    (h : xs.mapM f = .ok ws) : ∀ x ∈ xs, ∃ w, f x = .ok w := by
  have hresults := mapM_eq_ok_iff.1 h
  clear h
  induction hresults with
  | nil => exact List.forall_mem_nil _
  | cons hx _ ih => exact List.forall_mem_cons.2 ⟨⟨_, hx⟩, ih⟩

theorem mapM_eq_error_iff {f : α → Except ε β} {xs : List α} {e : ε} :
    xs.mapM f = .error e ↔ ∃ before x after,
      xs = before ++ x :: after ∧ (∀ b ∈ before, ∃ w, f b = .ok w) ∧ f x = .error e := by
  induction xs with
  | nil => simp [pure, Except.pure]
  | cons x xs ih =>
    rcases hx : f x with e' | w
    · rw [mapM_cons_error hx]
      constructor
      · intro h
        cases h
        exact ⟨[], x, xs, rfl, by simp, hx⟩
      · rintro ⟨before, y, after, hxs, hb, hy⟩
        cases before with
        | nil =>
          cases hxs
          rw [Except.error.inj (hx.symm.trans hy)]
        | cons b before =>
          cases hxs
          obtain ⟨w, hw⟩ := hb x List.mem_cons_self
          rw [hx] at hw
          cases hw
    · rw [mapM_cons_ok hx]
      rw [map_eq_error_iff, ih]
      constructor
      · rintro ⟨before, y, after, rfl, hb, hy⟩
        exact ⟨x :: before, y, after, rfl, List.forall_mem_cons.2 ⟨⟨w, hx⟩, hb⟩, hy⟩
      · rintro ⟨before, y, after, hxs, hb, hy⟩
        cases before with
        | nil =>
          cases hxs
          rw [hx] at hy
          cases hy
        | cons b before =>
          cases hxs
          exact ⟨before, y, after, rfl, fun b hm => hb b (List.mem_cons_of_mem _ hm), hy⟩

/-- Computations with a trace come to the same if only how they end counts. -/
theorem Traced.outcome_mapM {τ : Type} (f : α → Traced τ ε β) (xs : List α) :
    (xs.mapM f).outcome = xs.mapM fun x => (f x).outcome := by
  induction xs with
  | nil => rfl
  | cons x xs ih =>
    rw [List.mapM_cons, List.mapM_cons, outcome_both, ih]
    rfl

/-- Working through a list is `mapM`, and nothing else. -/
theorem itemwise_iff {f : α → Except ε β} {xs : List α} {build : List β → γ} {y : Except ε γ} :
    Itemwise f xs build y ↔ y = (xs.mapM f).map build := by
  constructor
  · intro h
    rcases hxs : xs.mapM f with e | ws
    · exact (h.error e).2 (mapM_eq_error_iff.1 hxs)
    · exact h.ok ws (mapM_eq_ok_iff.1 hxs)
  · rintro rfl
    refine ⟨fun ws h => by rw [mapM_eq_ok_iff.2 h]; rfl, fun e => ?_⟩
    rw [← mapM_eq_error_iff, map_eq_error_iff]

theorem Itemwise.map {δ : Type} {f : α → Except ε β} {xs : List α} {build : List β → γ}
    {y : Except ε γ} (h : Itemwise f xs build y) (g : γ → δ) :
    Itemwise f xs (fun ws => g (build ws)) (y.map g) := by
  rw [itemwise_iff] at h ⊢
  rw [h]
  rcases xs.mapM f <;> rfl

end Stencil
