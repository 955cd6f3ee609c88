import Mathlib.Data.List.Induction
import Stencil.Document

/-!
# Updating a document

Being the same key is symmetric and transitive, so what a document says of a key hangs on no
spelling.

**Values.** After an update a key has the value that it was given last, and its old value if it was
given none (`find?_update`).

**Places.** An update leaves the keys that were there in their places and appends the others in the
order in which they come first (`keys_update`).

In a document without repeated keys, as `ofEntries` makes it, the first entry of a key is its last.
-/

namespace Stencil

namespace Value

variable {a b c : Value}

theorem sameKey_iff : a.sameKey b = true ↔
    ∃ k, a.key? = some k ∧ b.key? = some k ∧ k.hasNaN = false := by
  unfold sameKey
  rcases a.key? with _ | x <;> rcases b.key? with _ | y <;> simp
  constructor
  · rintro ⟨h, rfl⟩
    exact ⟨rfl, h⟩
  · rintro ⟨rfl, h⟩
    exact ⟨h, rfl⟩

theorem sameKey_symm (h : a.sameKey b = true) : b.sameKey a = true := by
  obtain ⟨k, ha, hb, hk⟩ := sameKey_iff.1 h
  exact sameKey_iff.2 ⟨k, hb, ha, hk⟩

theorem sameKey_trans (hab : a.sameKey b = true) (hbc : b.sameKey c = true) :
    a.sameKey c = true := by
  obtain ⟨k, ha, hb, hk⟩ := sameKey_iff.1 hab
  obtain ⟨l, hb', hc, -⟩ := sameKey_iff.1 hbc
  cases hb.symm.trans hb'
  exact sameKey_iff.2 ⟨k, ha, hc, hk⟩

/-- The same key is the same as the same keys. -/
theorem sameKey_congr (h : a.sameKey b = true) (c : Value) : a.sameKey c = b.sameKey c :=
  Bool.eq_iff_iff.2 ⟨sameKey_trans (sameKey_symm h), sameKey_trans h⟩

end Value

namespace Document

open Value

variable {key : Value} {d es : Document}

/-! ## Values -/

theorem find?_insert (key k v : Value) (d : Document) :
    find? key (insert k v d) = if k.sameKey key then some v else find? key d := by
  induction d with
  | nil => rfl
  | cons e es ih =>
    obtain ⟨k', v'⟩ := e
    by_cases hk : k'.sameKey k = true
    · have hkey := sameKey_congr hk key
      by_cases h : k.sameKey key = true <;> simp [insert, find?, hk, hkey, h]
    · by_cases h' : k'.sameKey key = true
      · have h : ¬ k.sameKey key = true := fun h => hk (sameKey_trans h' (sameKey_symm h))
        simp [insert, find?, hk, h', h]
      · simp [insert, find?, hk, h', ih]

theorem find?_append (key : Value) (a b : Document) :
    find? key (a ++ b) = (find? key a).or (find? key b) := by
  induction a with
  | nil => rfl
  | cons e es ih =>
    obtain ⟨k, v⟩ := e
    by_cases h : k.sameKey key = true <;> simp [find?, h, ih]

/-- **The last value given counts**, and the old one if none was given. -/
theorem find?_update (key : Value) (d es : Document) :
    find? key (update d es) = (find? key es.reverse).or (find? key d) := by
  induction es generalizing d with
  | nil => rfl
  | cons e es ih =>
    obtain ⟨k, v⟩ := e
    rw [List.reverse_cons, find?_append, Option.or_assoc]
    show find? key (update (insert k v d) es) = _
    rw [ih, find?_insert]
    congr 1
    by_cases h : k.sameKey key = true <;> simp [find?, h]

theorem find?_ofEntries (key : Value) (es : Document) :
    find? key (ofEntries es) = find? key es.reverse := by
  rw [ofEntries, find?_update, find?_nil, Option.or_none]

/-! ## Places -/

theorem contains_eq_any (key : Value) (d : Document) :
    contains key d = d.any (·.1.sameKey key) := by
  induction d with
  | nil => rfl
  | cons e es ih =>
    obtain ⟨k, v⟩ := e
    rw [List.any_cons, ← ih]
    by_cases h : k.sameKey key = true <;> simp [contains, find?, h]

theorem contains_update (key : Value) (d es : Document) :
    contains key (update d es) = (contains key (ofEntries es) || contains key d) := by
  rw [contains, contains, contains, find?_update, find?_ofEntries, Option.isSome_or]

/-- **Keys that are there keep their places and new ones are appended**, each once. -/
theorem keys_update (d es : Document) :
    keys (update d es) = keys d ++ (keys (ofEntries es)).filter fun k => !contains k d := by
  induction es using List.reverseRecOn with
  | nil => simp [ofEntries, keys]
  | append_singleton es e ih =>
    obtain ⟨k, v⟩ := e
    have hlast (d : Document) : update d (es ++ [(k, v)]) = insert k v (update d es) := by
      rw [update_append]
      rfl
    rw [ofEntries, hlast, hlast, ← ofEntries, keys_insert, keys_insert, ← contains_eq_any,
      ← contains_eq_any, contains_update, ih]
    by_cases he : contains k (ofEntries es) = true <;> by_cases hd : contains k d = true <;>
      simp [he, hd]

theorem keys_prefix_update (d es : Document) : keys d <+: keys (update d es) :=
  ⟨_, (keys_update d es).symm⟩

/-! ## Properties of all entries -/

section

variable {p q : Value → Prop}

theorem forall_insert {k v : Value} (hk : p k) (hv : q v) (h : ∀ e ∈ d, p e.1 ∧ q e.2) :
    ∀ e ∈ insert k v d, p e.1 ∧ q e.2 := by
  induction d with
  | nil => exact List.forall_mem_singleton.2 ⟨hk, hv⟩
  | cons e d ih =>
    obtain ⟨he, hd⟩ := List.forall_mem_cons.1 h
    rw [insert]
    split
    · exact List.forall_mem_cons.2 ⟨⟨he.1, hv⟩, hd⟩
    · exact List.forall_mem_cons.2 ⟨he, ih hd⟩

/-- An update may put an old key and a new value together, so each is spoken of alone. -/
theorem forall_update (hd : ∀ e ∈ d, p e.1 ∧ q e.2) (hes : ∀ e ∈ es, p e.1 ∧ q e.2) :
    ∀ e ∈ update d es, p e.1 ∧ q e.2 := by
  induction es generalizing d with
  | nil => exact hd
  | cons e es ih =>
    obtain ⟨he, hes⟩ := List.forall_mem_cons.1 hes
    exact ih (forall_insert he.1 he.2 hd) hes

end

/-! ## Documents without repeated keys -/

theorem Distinct.insert (h : Distinct d) (k v : Value) : Distinct (insert k v d) := by
  rw [Distinct, keys_insert]
  split
  · exact h
  · next hk =>
    refine List.pairwise_append.2 ⟨h, List.pairwise_singleton _ _, ?_⟩
    intro a ha b hb
    rw [List.mem_singleton] at hb
    obtain ⟨e, he, rfl⟩ := List.mem_map.1 ha
    rw [hb, Bool.eq_false_iff]
    exact fun hab => hk (List.any_eq_true.2 ⟨e, he, hab⟩)

theorem Distinct.update (h : Distinct d) (es : Document) : Distinct (update d es) := by
  induction es generalizing d with
  | nil => exact h
  | cons e es ih => exact ih (h.insert e.1 e.2)

end Document
end Stencil
