import Stencil.Proofs.File.Variables
import Stencil.Proofs.Value.Part

/-!
# What is found in the parts of a node

**Values.** A reader takes only scalars as keys: null, booleans, numbers, texts, bytes, dates and
moments. So all keys inside a value that is read are scalars (`Value.IsRead`).

**Faults.** A node has no value because of a fault of form, or because it has a *flaw* (`Node.Flaw`):
some part of it has a tag that promises a boolean, a number or a moment, and a text that names none.

Values and faults are gathered over all parts, so one argument that follows the parts says of each
what is found in it (`Node.Finds`).

Main results: `Node.isRead_of_valueAt`, `Node.value_error`.
-/

namespace Stencil

/-! ## Values that are read -/

namespace Value

/-- What is said of a value that was read: as a key it is a scalar, and so are all keys inside. -/
structure IsRead (v : Value) : Prop where
  key : v.isKey = true → v.isScalar = true
  keys : v.KeysAre fun k => k.isScalar = true

variable {v : Value} {vs : List Value} {es : Document}

theorem isRead_of_isScalar (h : v.isScalar = true) : IsRead v where
  key _ := h
  keys := by
    rintro k ⟨⟩ <;> cases h

theorem isRead_list (h : ∀ v ∈ vs, v.KeysAre fun k => k.isScalar = true) : IsRead (.list vs) where
  key := by
    intro hkey
    simp [isKey, key?] at hkey
  keys := keysAre_list.2 h

theorem isRead_document (h : ∀ e ∈ es, e.1.isScalar = true ∧ IsRead e.2) :
    IsRead (.document es) where
  key := by
    intro hkey
    simp [isKey, key?] at hkey
  keys := keysAre_document.2 fun e he => ⟨(h e he).1, (h e he).2.keys⟩

theorem isRead_set (vs : List Value) : IsRead (.set vs) where
  key := by
    intro hkey
    simp [isKey, key?] at hkey
  keys := by
    rintro k ⟨⟩

end Value

namespace Yaml

open Value

/-! ## Flaws -/

theorem Scalar.value_error {tag : Tag} {cs : List Char} {f : Fault}
    (h : Scalar.value tag cs = .error f) : f = .malformed ∨ tag.promises = true := by
  cases tag with
  | bool | int | float | timestamp => exact .inr rfl
  | binary =>
    have hbinary := (map_eq_error_iff _).1 h
    unfold Scalar.binary at hbinary
    split at hbinary
    · cases hbinary
    · cases hbinary
      exact .inl rfl
  | null | text =>
    cases h
  | _ =>
    cases h
    exact .inl rfl

namespace Node

/-! ## What is found -/

variable {whole n : Node} {α β : Type} {p : α → Prop} {q : β → Prop} {depth : Nat}

/-- Something with a property is found, or a fault of form or a flaw of the whole. -/
structure Finds (whole : Node) (p : α → Prop) (x : Found α) : Prop where
  ok : ∀ a, x = .ok a → p a
  error : ∀ d f, x = .error (d, f) → f = .malformed ∨ whole.Flaw f

theorem finds_ok {a : α} (h : p a) : Finds whole p (.ok a) where
  ok := by
    rintro b ⟨⟩
    exact h
  error := by
    rintro d f ⟨⟩

theorem finds_error {d : Nat} {f : Fault} (h : f = .malformed ∨ whole.Flaw f) :
    Finds whole p (.error (d, f)) where
  ok := by
    rintro a ⟨⟩
  error := by
    rintro d f ⟨⟩
    exact h

theorem finds_malformed (d : Nat) : Finds whole p (.error (d, .malformed)) := finds_error (.inl rfl)

theorem Finds.map {x : Found α} (h : Finds whole p x) {g : α → β} (hg : ∀ a, p a → q (g a)) :
    Finds whole q (x.map g) where
  ok b hb := by
    obtain ⟨a, ha, rfl⟩ := (map_eq_ok_iff g).1 hb
    exact hg a (h.ok a ha)
  error d f hx := h.error d f ((map_eq_error_iff g).1 hx)

theorem Finds.both {x : Found α} {y : Found β} (hx : Finds whole p x) (hy : Finds whole q y) :
    Finds whole (fun ab => p ab.1 ∧ q ab.2) (both x y) := by
  unfold Node.both
  split
  · exact finds_ok ⟨hx.ok _ rfl, hy.ok _ rfl⟩
  · exact finds_error (hx.error _ _ rfl)
  · exact finds_error (hy.error _ _ rfl)
  · split
    · exact finds_error (hy.error _ _ rfl)
    · exact finds_error (hx.error _ _ rfl)

theorem finds_every {xs : List (Found α)} (h : ∀ x ∈ xs, Finds whole p x) :
    Finds whole (fun as => ∀ a ∈ as, p a) (every xs) := by
  induction xs with
  | nil => exact finds_ok (List.forall_mem_nil _)
  | cons x xs ih =>
    obtain ⟨hx, hxs⟩ := List.forall_mem_cons.1 h
    exact (hx.both (ih hxs)).map fun _ has => List.forall_mem_cons.2 has

theorem Finds.asKey {x : Found Value} (h : Finds whole IsRead x) :
    Finds whole (fun k => k.isScalar = true) (asKey depth x) := by
  unfold Node.asKey
  split
  · next k =>
    split
    · next hkey => exact finds_ok ((h.ok k rfl).key hkey)
    · exact finds_malformed depth
  · split
    · exact finds_malformed depth
    · exact finds_error (h.error _ _ rfl)

/-- A part whose text is read by its tag. -/
theorem finds_text {cs : List Char} (hpart : IsPart whole n) (htext : n.scalarText? = some cs) :
    Finds whole IsRead (at_ depth (Scalar.value n.tag cs)) := by
  rcases hvalue : Scalar.value n.tag cs with f | v
  · refine finds_error ((Scalar.value_error hvalue).imp_right fun hpromises => ?_)
    exact .unnamed hpart hpromises htext hvalue
  · exact finds_ok (isRead_of_isScalar (Scalar.value_isScalar hvalue))

theorem finds_asScalar {tag : Tag} {entries : List (Node × Node)}
    (hpart : IsPart whole (.mapping tag entries)) :
    Finds whole IsRead (asScalar depth tag (mapping tag entries).scalarText?) := by
  unfold asScalar
  split
  · exact finds_malformed depth
  · next cs htext =>
    split
    · exact finds_error (.inr (.notText hpart))
    · exact finds_text hpart htext

/-! ## Entries -/

/-- What is said of an entry that was read. -/
def IsReadEntry (e : Value × Value) : Prop := e.1.isScalar = true ∧ IsRead e.2

/-- Entries are found if the form of their mapping is right. -/
structure FindsAll (whole : Node) (x : Except Fault (List (Found (Value × Value)))) : Prop where
  error : ∀ e, x = .error e → e = .malformed
  ok : ∀ ps, x = .ok ps → ∀ p ∈ ps, Finds whole IsReadEntry p

theorem findsAll_malformed : FindsAll whole (.error .malformed) where
  error := by
    rintro e ⟨⟩
    rfl
  ok := by
    rintro ps ⟨⟩

theorem findsAll_ok {ps : List (Found (Value × Value))}
    (h : ∀ p ∈ ps, Finds whole IsReadEntry p) : FindsAll whole (.ok ps) where
  error := by
    rintro e ⟨⟩
  ok := by
    rintro ps ⟨⟩
    exact h

theorem finds_asDocument {parts : List (Found (Value × Value)) × List (Found (Value × Value))}
    (h : ∀ x ∈ parts.1 ++ parts.2, Finds whole IsReadEntry x) :
    Finds whole (fun d => ∀ e ∈ d, IsReadEntry e) (asDocument parts) :=
  (finds_every h).map fun _ hes =>
    Document.forall_update (p := fun k => k.isScalar = true) (q := IsRead) (List.forall_mem_nil _) hes

/-! ## Parts -/

mutual

theorem valueAt_finds (depth : Nat) (n : Node) (hpart : IsPart whole n) :
    Finds whole IsRead (valueAt depth n) := by
  cases n with
  | scalar tag text =>
    rw [valueAt]
    split
    · exact finds_malformed _
    · exact finds_text hpart rfl
  | sequence tag items =>
    have hparts : ∀ n ∈ items, IsPart whole n := fun n hn => .item hpart hn
    have hitems := finds_every (itemsAt_finds (depth + 1) items hparts)
    have hpairs := finds_every (pairsAt_finds (depth + 1) items hparts)
    unfold valueAt
    split
    · exact hitems.map fun vs hvs => isRead_list fun v hv => (hvs v hv).keys
    · exact hpairs.map fun vs hvs => isRead_list hvs
    · exact hpairs.map fun vs hvs => isRead_list hvs
    · exact finds_malformed _
  | mapping tag entries =>
    have hentries := entriesAt_finds (depth + 1) entries
      fun e he => ⟨.key hpart he, .value hpart he⟩
    have hform : ∀ e, entriesAt (depth + 1) entries = .error e → e = .malformed := fun e he =>
      hentries.error e ((map_eq_error_iff _).2 he)
    have hdocument (parts) (hok : entriesAt (depth + 1) entries = .ok parts) :=
      finds_asDocument (hentries.ok _ ((map_eq_ok_iff _).2 ⟨parts, hok, rfl⟩))
    unfold valueAt
    split
    · split
      · next hok => exact (hdocument _ hok).map fun d hd => isRead_document hd
      · next he =>
        rw [hform _ he]
        exact finds_malformed _
    · split
      · next hok => exact (hdocument _ hok).map fun d _ => isRead_set _
      · next he =>
        rw [hform _ he]
        exact finds_malformed _
    · split
      · exact finds_malformed _
      · exact finds_asScalar hpart

theorem itemsAt_finds (depth : Nat) (ns : List Node) (hparts : ∀ n ∈ ns, IsPart whole n) :
    ∀ x ∈ itemsAt depth ns, Finds whole IsRead x := by
  cases ns with
  | nil => exact List.forall_mem_nil _
  | cons n ns =>
    obtain ⟨hn, hns⟩ := List.forall_mem_cons.1 hparts
    rw [itemsAt]
    exact List.forall_mem_cons.2 ⟨valueAt_finds depth n hn, itemsAt_finds depth ns hns⟩

theorem pairsAt_finds (depth : Nat) (ns : List Node) (hparts : ∀ n ∈ ns, IsPart whole n) :
    ∀ x ∈ pairsAt depth ns, Finds whole (KeysAre fun k => k.isScalar = true) x := by
  have hsingle : ∀ x ∈ [(.error (depth, .malformed) : Found Value)],
      Finds whole (KeysAre fun k => k.isScalar = true) x :=
    List.forall_mem_singleton.2 (finds_malformed depth)
  match ns with
  | [] => exact List.forall_mem_nil _
  | .mapping _ [(k, v)] :: ns =>
    obtain ⟨hn, hns⟩ := List.forall_mem_cons.1 hparts
    have hpair := (valueAt_finds depth k (.key hn List.mem_cons_self)).both
      (valueAt_finds depth v (.value hn List.mem_cons_self))
    rw [pairsAt]
    refine List.forall_mem_cons.2 ⟨hpair.map fun ab hab => ?_, pairsAt_finds depth ns hns⟩
    exact keysAre_tuple.2 (by simpa using ⟨hab.1.keys, hab.2.keys⟩)
  | .mapping _ [] :: _ | .mapping _ (_ :: _ :: _) :: _ | .scalar _ _ :: _ | .sequence _ _ :: _ =>
    rw [pairsAt]
    · exact hsingle
    · simp

theorem entriesAt_finds (depth : Nat) (es : List (Node × Node))
    (hparts : ∀ e ∈ es, IsPart whole e.1 ∧ IsPart whole e.2) :
    FindsAll whole ((entriesAt depth es).map fun parts => parts.1 ++ parts.2) := by
  cases es with
  | nil => exact findsAll_ok (List.forall_mem_nil _)
  | cons e es =>
    obtain ⟨k, v⟩ := e
    obtain ⟨⟨hk, hv⟩, hes⟩ := List.forall_mem_cons.1 hparts
    have hothers := entriesAt_finds depth es hes
    have hmerged := mergedAt_finds depth v hv
    have hvalue := valueAt_finds depth v hv
    have hkey : Finds whole IsRead (match valueKeyText? k with
        | some cs => at_ depth (Scalar.value .text cs)
        | none => valueAt depth k) := by
      split
      · exact finds_ok (isRead_of_isScalar rfl)
      · exact valueAt_finds depth k hk
    unfold entriesAt
    split
    · split
      · next ms merged own hm he =>
        rw [he] at hothers
        rw [hm] at hmerged
        show FindsAll whole (.ok (ms ++ merged ++ own))
        rw [List.append_assoc]
        exact findsAll_ok (List.forall_mem_append.2 ⟨hmerged.ok _ rfl, hothers.ok _ rfl⟩)
      · next hm =>
        rw [hm] at hmerged
        exact hmerged
      · next he _ =>
        rw [he] at hothers
        exact hothers
    · dsimp only
      split
      · next merged own he =>
        rw [he] at hothers
        obtain ⟨hmergeds, howns⟩ := List.forall_mem_append.1 (hothers.ok _ rfl)
        exact findsAll_ok (List.forall_mem_append.2
          ⟨hmergeds, List.forall_mem_cons.2 ⟨hkey.asKey.both hvalue, howns⟩⟩)
      · next he =>
        rw [he] at hothers
        exact hothers

theorem mergedAt_finds (depth : Nat) (n : Node) (hpart : IsPart whole n) :
    FindsAll whole (mergedAt depth n) := by
  cases n with
  | scalar =>
    rw [mergedAt]
    exact findsAll_malformed
  | sequence tag items =>
    rw [mergedAt]
    exact sourcesAt_finds depth items fun n hn => .item hpart hn
  | mapping tag entries =>
    rw [mergedAt]
    exact entriesAt_finds depth entries fun e he => ⟨.key hpart he, .value hpart he⟩

theorem sourcesAt_finds (depth : Nat) (ns : List Node) (hparts : ∀ n ∈ ns, IsPart whole n) :
    FindsAll whole (sourcesAt depth ns) := by
  cases ns with
  | nil => exact findsAll_ok (List.forall_mem_nil _)
  | cons n ns =>
    obtain ⟨hn, hns⟩ := List.forall_mem_cons.1 hparts
    cases n with
    | scalar | sequence =>
      rw [sourcesAt]
      · exact findsAll_malformed
      · simp
    | mapping tag entries =>
      have hown := entriesAt_finds depth entries fun e he => ⟨.key hn he, .value hn he⟩
      have hrest := sourcesAt_finds depth ns hns
      unfold sourcesAt
      split
      · next merged own rest he hr =>
        rw [he] at hown
        rw [hr] at hrest
        rw [List.append_assoc]
        exact findsAll_ok (List.forall_mem_append.2 ⟨hrest.ok _ rfl, hown.ok _ rfl⟩)
      · next he =>
        rw [he] at hown
        exact hown
      · next hr _ =>
        rw [hr] at hrest
        exact hrest

end

/-- **All keys inside the value of a node are scalars**, and so is the value if it is a key. -/
theorem isRead_of_valueAt {v : Value} (h : n.valueAt 0 = .ok v) : IsRead v :=
  (valueAt_finds 0 n .self).ok v h

/-- **A node has no value because of its form or because of a flaw.** -/
theorem value_error {f : Fault} (h : n.value = .error f) : f = .malformed ∨ n.Flaw f := by
  unfold value at h
  rcases hvalue : n.valueAt 0 with ⟨d, e⟩ | v
  · rw [hvalue] at h
    cases h
    exact (valueAt_finds 0 n .self).error d e hvalue
  · rw [hvalue] at h
    cases h

end Node

/-- The value of a document is lacking because of the form or because of a flaw, or because a node that
holds itself was not unfolded. -/
theorem valueOf_error {lib : Library} {n : Node} {f : Fault} (h : valueOf lib n = .error f) :
    f = .malformed ∨ n.Flaw f ∨ f = .tooDeep ∧ n.holdsItself = true := by
  rw [valueOf, map_eq_error_iff] at h
  split at h
  · next hself =>
    rcases lib.error_unrolled n f h with hf | hf | hf
    · exact .inl hf
    · exact .inr (.inr ⟨hf, hself⟩)
    · exact .inr (.inl hf)
  · exact (Node.value_error h).imp_right .inl

/-- All keys inside a value that is read are scalars. -/
theorem keysAre_scalar_of_read {lib : Library} {data : List UInt8} {v : Value}
    (h : read lib data = .ok v) : v.KeysAre fun k => k.isScalar = true := by
  obtain rfl | ⟨n, hvalue⟩ := valueOf_of_read h
  · exact (isRead_of_isScalar rfl).keys
  · obtain ⟨w, hw, rfl⟩ := ordered_of_valueOf hvalue
    rcases hw with hw | hw
    · exact (Node.isRead_of_valueAt hw).keys.ordered
    · exact (lib.keysAre_unrolled n w hw).ordered

end Yaml
end Stencil
