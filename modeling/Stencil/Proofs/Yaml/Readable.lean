import Stencil.Proofs.Yaml.Meaning
import Stencil.Proofs.Yaml.Rendered

/-!
# Nodes that are read back

A node is *readable* where it stands if all its scalars are, and all texts that are its simple keys
(`Node.Readable`). Then it is a content of its slot (`Node.isContent_of_readable`).

Which nodes of restorable values are readable can be computed: it is for their texts alone to be safe
where they are written (`Node.isSafe`, `Node.readable_of_restorable`).
-/

namespace Stencil.Yaml.Node

variable {slot? : Option Slot} {i : Nat} {k n v : Node} {cs : List Char} {tag : Tag}

/-! ## Where nodes stand -/

/-- The indentation of further lines of a scalar that stands alone or in a slot. -/
def textIndent (slot? : Option Slot) : Nat := deeper 2 (slot?.map Slot.column)

/-- The column of a sequence that stands alone or in a slot. -/
def sequenceColumn (slot? : Option Slot) : Nat := (slot?.map Slot.sequenceColumn).getD 0

/-- The column of a mapping that stands alone or in a slot. -/
def mappingColumn (slot? : Option Slot) : Nat := deeper 0 (slot?.map Slot.column)

/-- The slot of the value behind a key in a block at a column. -/
def valueSlot (i : Nat) (k : Node) : Slot := if k.isSimpleKey then .under i else .inline i

/-! ## Readable nodes -/

/-- A text that is a simple key is safe as one. -/
def IsSafeKey (i : Nat) (k : Node) : Prop :=
  k.isSimpleKey = true → ∃ cs, k = .scalar .text cs ∧ isSafeText (i + 2) true cs = true

/-- A node is read back where it stands. -/
inductive Readable : Option Slot → Node → Prop
  | scalar {slot? : Option Slot} {tag : Tag} {cs : List Char} (h : IsReadable (textIndent slot?) tag cs) :
      Readable slot? (.scalar tag cs)
  | sequence {slot? : Option Slot} {ns : List Node}
      (h : ∀ n ∈ ns, Readable (some (.inline (sequenceColumn slot?))) n) :
      Readable slot? (.sequence .sequence ns)
  | mapping {slot? : Option Slot} {es : List (Node × Node)}
      (hsimple : ∀ e ∈ es, e.1.IsSafeKey (mappingColumn slot?))
      (hcomplex : ∀ e ∈ es, e.1.isSimpleKey = false →
        Readable (some (.inline (mappingColumn slot?))) e.1)
      (hvalues : ∀ e ∈ es, Readable (some (e.1.valueSlot (mappingColumn slot?))) e.2) :
      Readable slot? (.mapping .mapping es)

theorem isEntry_of_isContent (hsimple : k.IsSafeKey i)
    (hcomplex : k.isSimpleKey = false → IsContent (.inline i) .entry k)
    (hvalue : IsContent (k.valueSlot i) .entry v) : IsEntry i (k, v) := by
  cases hkey : k.isSimpleKey with
  | true =>
    obtain ⟨cs, rfl, hsafe⟩ := hsimple hkey
    rw [valueSlot, hkey, if_pos rfl] at hvalue
    exact isEntry_simple hsafe hkey hvalue
  | false =>
    rw [valueSlot, hkey, if_neg Bool.false_ne_true] at hvalue
    exact isEntry_complex hkey (hcomplex hkey) hvalue

/-- **Readable nodes are read back in their slots.** -/
theorem isContent_of_readable {slot : Slot} {place : Place} (h : Readable (some slot) n)
    (hplace : slot.suits place = true) : IsContent slot place n := by
  generalize hslot : some slot = slot? at h
  induction h generalizing slot place with
  | scalar h =>
    subst hslot
    exact isContent_scalar h hplace
  | sequence h ih =>
    subst hslot
    exact isContent_sequence hplace fun n hn => ih n hn rfl rfl
  | mapping hsimple hcomplex hvalues ihcomplex ihvalues =>
    subst hslot
    refine isContent_mapping fun e he => isEntry_of_isContent (hsimple e he) ?_ ?_
    · exact fun hkey => ihcomplex e he hkey rfl rfl
    · refine ihvalues e he ?_ rfl
      cases e.1.valueSlot (mappingColumn (some slot)) <;> rfl

/-! ## Safe nodes -/

/-- The text of a node that is a key. -/
def keyText : Node → List Char
  | .scalar _ cs => cs
  | _ => []

mutual

/-- All texts of a node are safe where they are written. -/
def isSafe (slot? : Option Slot) : Node → Bool
  | .scalar tag cs => tag != .text || isSafeText (textIndent slot?) false cs
  | .sequence _ items => itemsAreSafe (sequenceColumn slot?) items
  | .mapping _ entries => entriesAreSafe (mappingColumn slot?) entries

/-- All texts of the items of a sequence at a column are safe. -/
def itemsAreSafe (i : Nat) : List Node → Bool
  | [] => true
  | n :: ns => n.isSafe (some (.inline i)) && itemsAreSafe i ns

/-- All texts of the entries of a mapping at a column are safe. -/
def entriesAreSafe (i : Nat) : List (Node × Node) → Bool
  | [] => true
  | (k, v) :: es =>
    (if k.isSimpleKey then isSafeText (i + 2) true k.keyText else k.isSafe (some (.inline i))) &&
      v.isSafe (some (k.valueSlot i)) && entriesAreSafe i es

end

theorem isSafe_of_mem_items {ns : List Node} (h : itemsAreSafe i ns = true) :
    ∀ n ∈ ns, n.isSafe (some (.inline i)) = true := by
  induction ns with
  | nil => exact List.forall_mem_nil _
  | cons n ns ih =>
    rw [itemsAreSafe, Bool.and_eq_true] at h
    exact List.forall_mem_cons.2 ⟨h.1, ih h.2⟩

theorem isSafe_of_mem_entries {es : List (Node × Node)} (h : entriesAreSafe i es = true) :
    ∀ e ∈ es, (e.1.isSimpleKey = true → isSafeText (i + 2) true e.1.keyText = true) ∧
      (e.1.isSimpleKey = false → e.1.isSafe (some (.inline i)) = true) ∧
      e.2.isSafe (some (e.1.valueSlot i)) = true := by
  induction es with
  | nil => exact List.forall_mem_nil _
  | cons e es ih =>
    rw [entriesAreSafe, Bool.and_eq_true, Bool.and_eq_true] at h
    refine List.forall_mem_cons.2 ⟨⟨fun hkey => ?_, fun hkey => ?_, h.1.2⟩, ih h.2⟩
    · simpa [hkey] using h.1.1
    · simpa [hkey] using h.1.1

/-! ## Nodes of restorable values -/

theorem exists_of_mem_items {vs : List Value} {ns : List Node} (h : ofItems? vs = some ns) :
    ∀ n ∈ ns, ∃ v ∈ vs, ofValue? v = some n := by
  induction vs generalizing ns with
  | nil =>
    cases h
    exact List.forall_mem_nil _
  | cons v vs ih =>
    rw [ofItems?] at h
    split at h
    · next n ns hn hns =>
      cases h
      refine List.forall_mem_cons.2 ⟨⟨v, List.mem_cons_self, hn⟩, fun m hm => ?_⟩
      obtain ⟨w, hw, hm⟩ := ih hns m hm
      exact ⟨w, List.mem_cons_of_mem _ hw, hm⟩
    · cases h

theorem exists_of_mem_entries {entries : Document} {es : List (Node × Node)}
    (h : ofEntries? entries = some es) :
    ∀ e ∈ es, ∃ x ∈ entries, ofValue? x.1 = some e.1 ∧ ofValue? x.2 = some e.2 := by
  induction entries generalizing es with
  | nil =>
    cases h
    exact List.forall_mem_nil _
  | cons x entries ih =>
    rw [ofEntries?] at h
    split at h
    · next a b ns ha hb hns =>
      cases h
      refine List.forall_mem_cons.2 ⟨⟨x, List.mem_cons_self, ha, hb⟩, fun e he => ?_⟩
      obtain ⟨y, hy, he⟩ := ih hns e he
      exact ⟨y, List.mem_cons_of_mem _ hy, he⟩
    · cases h

theorem readable_word {w : List Char} (hword : IsWord w) (hbinary : tag ≠ .binary)
    (htag : ∀ {rules : List Rule}, IsSchema rules → plainTag rules w = tag) :
    Readable slot? (.scalar tag w) :=
  .scalar (.inr ⟨hword, hbinary, beq_iff_eq.2 (htag (.inl rfl)), htag (.inr rfl)⟩)

theorem readable_text (h : isSafe slot? (.scalar .text cs) = true) :
    Readable slot? (.scalar .text cs) := by
  rw [isSafe] at h
  exact .scalar (.inl ⟨rfl, by simpa using h⟩)

/-- The entries of a mapping are readable if its keys are texts. -/
theorem readable_mapping {es : List (Node × Node)} (hkeys : ∀ e ∈ es, ∃ cs, e.1 = .scalar .text cs)
    (hsafe : entriesAreSafe (mappingColumn slot?) es = true)
    (hvalues : ∀ e ∈ es, e.2.isSafe (some (e.1.valueSlot (mappingColumn slot?))) = true →
      Readable (some (e.1.valueSlot (mappingColumn slot?))) e.2) :
    Readable slot? (.mapping .mapping es) := by
  have hsafes := isSafe_of_mem_entries hsafe
  refine .mapping (fun e he hkey => ?_) (fun e he hkey => ?_) (fun e he => ?_)
  · obtain ⟨cs, hcs⟩ := hkeys e he
    have hsimple := (hsafes e he).1 hkey
    rw [hcs] at hsimple
    exact ⟨cs, hcs, hsimple⟩
  · obtain ⟨cs, hcs⟩ := hkeys e he
    have hcomplex := (hsafes e he).2.1 hkey
    rw [hcs] at hcomplex ⊢
    exact readable_text hcomplex
  · exact hvalues e he (hsafes e he).2.2

/-- **Where all texts are safe, the node of a restorable value is readable.** -/
theorem readable_of_restorable {v : Value} (h : Restorable v) (hnode : ofValue? v = some n)
    (hsafe : n.isSafe slot? = true) : Readable slot? n := by
  induction h generalizing n slot? with
  | null =>
    cases hnode
    refine readable_word isWord_null (by decide) fun hrules => ?_
    rcases hrules with rfl | rfl <;> decide
  | bool b =>
    cases hnode
    refine readable_word (isWord_bool b) (by decide) fun hrules => ?_
    rcases hrules with rfl | rfl <;> cases b <;> decide
  | @int m h =>
    rw [ofValue?, Integer.text?, if_pos h] at hnode
    cases hnode
    exact readable_word (isWord_integer m) (by decide) fun hrules => plainTag_integer hrules m
  | @float x hfinite hpoint =>
    rw [ofValue?, floatText_of_point hfinite hpoint] at hnode
    cases hnode
    exact readable_word (isWord_float hfinite hpoint) (by decide)
      fun hrules => plainTag_float hrules hfinite hpoint
  | text s =>
    cases hnode
    exact readable_text hsafe
  | @list items _ ih =>
    rw [ofValue?] at hnode
    obtain ⟨ns, hns, rfl⟩ := Option.map_eq_some_iff.1 hnode
    rw [isSafe] at hsafe
    refine .sequence fun n hn => ?_
    obtain ⟨v, hv, hvn⟩ := exists_of_mem_items hns n hn
    exact ih v hv hvn (isSafe_of_mem_items hsafe n hn)
  | @document entries hkeys _ _ ih =>
    rw [ofValue?] at hnode
    obtain ⟨es, hes, rfl⟩ := Option.map_eq_some_iff.1 hnode
    rw [isSafe] at hsafe
    refine readable_mapping (fun e he => ?_) hsafe fun e he hvalue => ?_
    · obtain ⟨x, hx, hk, -⟩ := exists_of_mem_entries hes e he
      obtain ⟨s, hs⟩ := hkeys x hx
      rw [hs] at hk
      exact ⟨s.toList, (Option.some.inj hk).symm⟩
    · obtain ⟨x, hx, -, hv⟩ := exists_of_mem_entries hes e he
      exact ih x hx hv hvalue

end Stencil.Yaml.Node
