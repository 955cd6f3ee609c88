import Stencil.Proofs.Document.Removal

/-!
# Maps by their histories

What an insertion-ordered map must hold, told by the writes that were made to it and by nothing
else. A key has the value it was given last, unless it was taken out since (`Write.value?`). A key
is *born* where it is put while it is absent, and stands in the map, at this place and under this
spelling, as long as nothing takes it out (`Write.births`). So `Write.content` looks at the history
from all sides and keeps no map along the way.

**Tracking.** A document *tracks* a history if it has no repeated keys, the keys born in it in their
order, and says of every key what the history says. Putting, taking out and clearing keep up with
the history (`Tracks.put`, `Tracks.remove`, `Tracks.clear`), and a document that tracks a history is
its content (`Tracks.eq_content`).
-/

namespace Stencil

open Document Value

/-- A write to a map. -/
inductive Write where
  | put (key value : Value)
  | remove (key : Value)
  | clear

namespace Write

/-- The write takes a key out. -/
def takesOut (key : Value) : Write → Bool
  | put .. => false
  | remove k => k.sameKey key
  | clear => true

/-- What a key's value becomes by a write. -/
def change (key : Value) (old? : Option Value) : Write → Option Value
  | put k v => if k.sameKey key then some v else old?
  | remove k => if k.sameKey key then none else old?
  | clear => none

/-- The value of a key after some writes. -/
def value? (key : Value) (ws : List Write) : Option Value := ws.foldl (change key) none

/-- The keys that are put while they are absent and not taken out afterwards, in order. `before`
are the writes before these. -/
def births (before : List Write) : List Write → List Value
  | [] => []
  | w :: after =>
    let later := births (before ++ [w]) after
    match w with
    | put k _ =>
      if (value? k before).isNone && after.all (!takesOut k ·) then k :: later else later
    | _ => later

/-- The map that some writes make. -/
def content (ws : List Write) : Document :=
  (births [] ws).map fun k => (k, (value? k ws).getD .null)

/-- The keys that a last write adds. -/
def newborn (before : List Write) : Write → List Value
  | put k _ => if (value? k before).isNone then [k] else []
  | _ => []

/-! ## One more write -/

theorem value?_concat (key : Value) (ws : List Write) (w : Write) :
    value? key (ws ++ [w]) = change key (value? key ws) w := by
  simp [value?]

/-- A last write takes some of the keys out and may add one. -/
theorem births_concat (before ws : List Write) (w : Write) :
    births before (ws ++ [w]) =
      (births before ws).filter (!takesOut · w) ++ newborn (before ++ ws) w := by
  induction ws generalizing before with
  | nil => cases w <;> simp [births, newborn]
  | cons u us ih =>
    have hlater := ih (before ++ [u])
    rw [List.append_assoc, List.singleton_append] at hlater
    cases u with
    | remove k => simpa [births] using hlater
    | clear => simpa [births] using hlater
    | put k v =>
      simp only [List.cons_append, births, hlater, List.all_append, List.all_cons, List.all_nil,
        Bool.and_true]
      by_cases hborn : ((value? k before).isNone && us.all (!takesOut k ·)) = true
      · by_cases hout : takesOut k w = true <;> simp [hborn, hout]
      · simp [hborn, ← Bool.and_assoc]

end Write

/-! ## Documents that keep up with a history -/

/-- A document holds what a history says. -/
structure Tracks (d : Document) (ws : List Write) : Prop where
  distinct : Distinct d
  keys_eq : keys d = Write.births [] ws
  find?_eq : ∀ key, find? key d = Write.value? key ws

namespace Tracks

variable {d : Document} {ws : List Write}

theorem nil : Tracks [] [] := ⟨List.Pairwise.nil, rfl, fun _ => rfl⟩

theorem put (h : Tracks d ws) (k v : Value) : Tracks (insert k v d) (ws ++ [.put k v]) where
  distinct := h.distinct.insert k v
  keys_eq := by
    have habsent : (Write.value? k ws).isNone = !d.any (·.1.sameKey k) := by
      rw [← h.find?_eq, ← contains_eq_any, contains, Option.not_isSome]
    have hkept : (Write.births [] ws).filter (!Write.takesOut · (.put k v)) = Write.births [] ws :=
      List.filter_eq_self.2 fun _ _ => rfl
    rw [Write.births_concat, keys_insert, h.keys_eq, hkept, List.nil_append, Write.newborn, habsent]
    by_cases hk : d.any (·.1.sameKey k) = true <;> simp [hk]
  find?_eq key := by
    rw [Write.value?_concat, find?_insert, h.find?_eq, Write.change]

theorem remove (h : Tracks d ws) (k : Value) : Tracks (erase k d) (ws ++ [.remove k]) where
  distinct := h.distinct.erase k
  keys_eq := by
    rw [Write.births_concat, keys_erase k h.distinct, h.keys_eq]
    simp [Write.takesOut, Write.newborn]
  find?_eq key := by
    rw [Write.value?_concat, find?_erase k key h.distinct, h.find?_eq, Write.change]

theorem clear (ws : List Write) : Tracks [] (ws ++ [.clear]) where
  distinct := List.Pairwise.nil
  keys_eq := by
    rw [Write.births_concat]
    simp [Write.takesOut, Write.newborn, keys]
  find?_eq key := by
    rw [Write.value?_concat]
    rfl

theorem update (h : Tracks d ws) (es : Document) :
    Tracks (update d es) (ws ++ es.map fun e => .put e.1 e.2) := by
  induction es generalizing d ws with
  | nil => simpa using h
  | cons e es ih =>
    have hrest := ih (h.put e.1 e.2)
    rw [List.append_assoc] at hrest
    exact hrest

/-- A document without repeated keys tracks the writes of its entries. -/
theorem of_distinct (h : Distinct d) : Tracks d (d.map fun e => .put e.1 e.2) := by
  have htracks : Tracks (ofEntries d) _ := nil.update d
  rwa [h.ofEntries_eq] at htracks

/-- **A document that keeps up with a history is its content.** -/
theorem eq_content (h : Tracks d ws) (hself : ∀ a ∈ keys d, a.sameKey a = true) :
    d = Write.content ws := by
  calc d = (keys d).map fun a => (a, (find? a d).getD .null) := h.distinct.eq_map_keys hself
    _ = Write.content ws := by
      rw [h.keys_eq, Write.content]
      exact List.map_congr_left fun a _ => by rw [h.find?_eq]

end Tracks

end Stencil
