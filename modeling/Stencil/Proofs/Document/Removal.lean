import Stencil.Proofs.Document.Update

/-!
# Taking keys out of a document

Without repeated keys, taking a key out removes its only entry and leaves the others in their
places (`keys_erase`, `find?_erase`). Such a document is told by its keys and what it says of them
(`Distinct.eq_map_keys`), and its own entries put one after the other give it back
(`Distinct.ofEntries_eq`).
-/

namespace Stencil.Document

open Value

variable {key k v : Value} {d es : Document}

theorem find?_eq_none_of_forall (h : ∀ a ∈ keys d, a.sameKey key = false) : find? key d = none := by
  rw [← Option.not_isSome_iff_eq_none, ← contains, contains_eq_any, List.any_eq_true]
  rintro ⟨e, he, hsame⟩
  rw [h e.1 (List.mem_map_of_mem he)] at hsame
  cases hsame

theorem keys_erase (key : Value) (h : Distinct d) :
    keys (erase key d) = (keys d).filter fun a => !key.sameKey a := by
  induction d with
  | nil => rfl
  | cons e es ih =>
    obtain ⟨k, v⟩ := e
    obtain ⟨hhead, htail⟩ := List.pairwise_cons.1 h
    by_cases hk : k.sameKey key = true
    · have hkey : key.sameKey k = true := sameKey_symm hk
      have hothers : ∀ a ∈ keys es, (!key.sameKey a) = true := by
        intro a ha
        rw [← sameKey_congr hk a, hhead a ha]
        rfl
      show keys (erase key ((k, v) :: es)) = ((k :: keys es).filter _)
      rw [erase, if_pos hk, List.filter_cons_of_neg (by simp [hkey]),
        List.filter_eq_self.2 hothers]
    · have hkey : ¬ key.sameKey k = true := fun h => hk (sameKey_symm h)
      show keys (erase key ((k, v) :: es)) = ((k :: keys es).filter _)
      rw [erase, if_neg hk, List.filter_cons_of_pos (by simp [hkey]), ← ih htail]
      rfl

theorem find?_erase (key a : Value) (h : Distinct d) :
    find? a (erase key d) = if key.sameKey a then none else find? a d := by
  induction d with
  | nil => simp [erase]
  | cons e es ih =>
    obtain ⟨k, v⟩ := e
    obtain ⟨hhead, htail⟩ := List.pairwise_cons.1 h
    by_cases hk : k.sameKey key = true
    · have hka : k.sameKey a = key.sameKey a := sameKey_congr hk a
      by_cases ha : key.sameKey a = true
      · have hnone : find? a es = none := find?_eq_none_of_forall fun b hb => by
          rw [← Bool.not_eq_true]
          intro hba
          have hkb := hhead b hb
          rw [sameKey_trans (hka.trans ha) (sameKey_symm hba)] at hkb
          cases hkb
        simp [erase, hk, ha, hnone]
      · simp [erase, find?, hk, hka, ha]
    · by_cases hka : k.sameKey a = true
      · have ha : ¬ key.sameKey a = true := fun ha => hk (sameKey_trans hka (sameKey_symm ha))
        simp [erase, find?, hk, hka, ha]
      · simp [erase, find?, hk, hka, ih htail]

theorem Distinct.erase (h : Distinct d) (key : Value) : Distinct (erase key d) := by
  rw [Distinct, keys_erase key h]
  exact h.filter _

/-- The keys and what is said of them tell the document. -/
theorem Distinct.eq_map_keys (h : Distinct d) (hself : ∀ a ∈ keys d, a.sameKey a = true) :
    d = (keys d).map fun a => (a, (find? a d).getD .null) := by
  induction d with
  | nil => rfl
  | cons e es ih =>
    obtain ⟨k, v⟩ := e
    obtain ⟨hhead, htail⟩ := List.pairwise_cons.1 h
    have hk : k.sameKey k = true := hself k List.mem_cons_self
    have hrest : ∀ a ∈ keys es, find? a ((k, v) :: es) = find? a es := by
      intro a ha
      rw [find?, if_neg (by simp [hhead a ha])]
    show (k, v) :: es = (k, (find? k ((k, v) :: es)).getD .null) :: (keys es).map _
    rw [find?, if_pos hk, Option.getD_some]
    congr 1
    calc es = (keys es).map fun a => (a, (find? a es).getD .null) :=
          ih htail fun a ha => hself a (List.mem_cons_of_mem _ ha)
      _ = _ := List.map_congr_left fun a ha => by rw [hrest a ha]

theorem insert_of_absent (h : ∀ a ∈ keys d, a.sameKey k = false) (v : Value) :
    insert k v d = d ++ [(k, v)] := by
  induction d with
  | nil => rfl
  | cons e es ih =>
    rw [insert, if_neg (by simp [h e.1 List.mem_cons_self]),
      ih fun a ha => h a (List.mem_cons_of_mem _ ha)]
    rfl

theorem update_of_distinct (h : Distinct (d ++ es)) : update d es = d ++ es := by
  induction es generalizing d with
  | nil => simp
  | cons e es ih =>
    have hkeys : keys (d ++ e :: es) = keys d ++ e.1 :: keys es := by simp [keys]
    have habsent : ∀ a ∈ keys d, a.sameKey e.1 = false := by
      rw [Distinct, hkeys] at h
      intro a ha
      exact (List.pairwise_append.1 h).2.2 a ha e.1 List.mem_cons_self
    show update (insert e.1 e.2 d) es = _
    rw [insert_of_absent habsent, ih (by simpa using h)]
    simp

/-- Its own entries give the document back. -/
theorem Distinct.ofEntries_eq (h : Distinct d) : ofEntries d = d := update_of_distinct h

end Stencil.Document
