import Stencil.Proofs.Yaml.Content
import Stencil.Proofs.Yaml.Reading
import Stencil.Proofs.Yaml.Scalar.Styled

/-!
# What is written for nodes

Where the reading of a text has slots and columns for parts, its writing has states of the pen
(`Pen.StandsIn`, `Pen.AtColumn`). To write a part from such a state is to write characters that are
read as one (`WritesPart`), and so for contents (`WritesContent`). The lemmas on these put together
what is written as those on `IsPart` and `Fits` do what is read.

A node is a content if what is written for it is one and reads as the node (`Node.IsContent`). The
main results make contents from others: `Node.isContent_sequence`, and `Node.isContent_mapping` with
the lemmas for entries.
-/

namespace Stencil.Yaml

variable {i : Nat} {w x : List Char} {tok : Token} {ts us : List Token} {slot : Slot}

/-! ## States of the pen -/

namespace Pen

variable {p q : Pen}

/-- The pen stands at a column, with nothing but indentation before it. -/
structure AtColumn (p : Pen) (i : Nat) : Prop where
  column_eq : p.column = i
  afterBlank_eq : p.afterBlank = true
  atIndent_eq : p.atIndent = true
  isOpen_eq : p.isOpen = false

/-- The pen stands behind an indicator or a key. -/
structure StandsIn (p : Pen) (slot : Slot) : Prop where
  afterBlank_eq : p.afterBlank = false
  isOpen_eq : p.isOpen = false
  atIndent_eq : p.atIndent = slot.isInline
  column_eq : slot.isInline = true → p.column = slot.column + 1

theorem atColumn_indentTo (h : p.isOpen = false) (i : Nat) : (p.indentTo i).AtColumn i := by
  cases hline : p.needsLine i with
  | true =>
    rw [indentTo_of_needsLine hline]
    exact ⟨rfl, rfl, rfl, h⟩
  | false =>
    rw [indentTo_of_not_needsLine hline]
    refine ⟨rfl, rfl, ?_, h⟩
    simp only [needsLine, Bool.or_eq_false_iff, Bool.not_eq_false'] at hline
    exact hline.1.1

theorem AtColumn.indentTo_eq (h : p.AtColumn i) : p.indentTo i = p := by
  have hline : p.needsLine i = false := by
    simp [needsLine, h.column_eq, h.afterBlank_eq, h.atIndent_eq]
  obtain ⟨reversed, column, afterBlank, atIndent, isOpen⟩ := p
  obtain ⟨rfl, rfl, rfl, rfl⟩ := h
  rw [indentTo_of_not_needsLine hline]
  simp

theorem AtColumn.lead_eq (h : p.AtColumn i) : p.lead = [] := by
  rw [lead, h.afterBlank_eq]
  rfl

theorem StandsIn.lead_eq (h : p.StandsIn slot) : p.lead = [' '] := by
  rw [lead, h.afterBlank_eq]
  rfl

/-- Behind something on the line another line is begun. -/
theorem Ended.writes_indentTo (h : p.Ended) (i : Nat) : p.Writes (freshLine i []) (p.indentTo i) := by
  have hwrites := Pen.writes_indentTo (needsLine_of_ended h i)
  rwa [freshLine, List.append_nil]

/-- Before a block the gap of the slot is written. -/
theorem StandsIn.writes_indentTo (h : p.StandsIn slot)
    (hi : slot.isInline = true → i = slot.column + 2) : p.Writes (slot.gap i) (p.indentTo i) := by
  cases slot with
  | inline k =>
    obtain rfl := hi rfl
    have hcolumn : p.column = k + 1 := h.column_eq rfl
    have hline : p.needsLine (k + 2) = false := by
      simp [needsLine, hcolumn, h.atIndent_eq, Slot.isInline]
    have hgap : k + 2 - p.column = 1 := by omega
    rw [show (Slot.inline k).column + 2 = k + 2 from rfl, indentTo_of_not_needsLine hline, hgap]
    exact ⟨rfl, id⟩
  | under k =>
    exact Ended.writes_indentTo ⟨h.afterBlank_eq, h.atIndent_eq⟩ i

/-- Behind an indicator at the begin of a part. -/
theorem AtColumn.writes_indicator (h : p.AtColumn i) (c : Char) :
    p.Writes [c] (p.indicator [c] true false true) ∧
      (p.indicator [c] true false true).StandsIn (.inline i) := by
  have hwrites := Pen.writes_indicator p [c] false true
  rw [h.lead_eq] at hwrites
  refine ⟨hwrites, rfl, rfl, ?_, fun _ => ?_⟩
  · simp [indicator, h.atIndent_eq, Slot.isInline]
  · simp [indicator, put, h.afterBlank_eq, h.column_eq, Slot.column]

/-- Behind the colon of a key. -/
theorem writes_colon (p : Pen) (i : Nat) :
    p.Writes [':'] (p.indicator [':'] false false false) ∧
      (p.indicator [':'] false false false).StandsIn (.under i) :=
  ⟨writes_mark p [':'] false false, rfl, rfl, Bool.and_false _, nofun⟩

end Pen

open Pen

/-! ## Parts and contents -/

/-- What is written from the column of a block is read as a part of it. -/
def WritesPart (tok : Token) (i : Nat) (f : Pen → Pen) (ts : List Token) : Prop :=
  ∀ p : Pen, p.AtColumn i → ∃ x, IsPart tok i x ts ∧ (∀ c ∈ x, isKept c = true) ∧
    p.Writes x (f p) ∧ (f p).Ended

/-- What is written in a slot is read as a content. -/
def WritesContent (slot : Slot) (f : Pen → Pen) (ts : List Token) : Prop :=
  ∀ p : Pen, p.StandsIn slot → ∃ w, Fits slot w ts ∧ (∀ c ∈ w, isKept c = true) ∧
    p.Writes w (f p) ∧ (f p).Ended

variable {f g : Pen → Pen}

theorem WritesContent.congr (h : WritesContent slot g ts)
    (heq : ∀ p : Pen, p.StandsIn slot → f p = g p) : WritesContent slot f ts := by
  intro p hp
  rw [heq p hp]
  exact h p hp

theorem WritesPart.congr (h : WritesPart tok i g ts) (heq : ∀ p : Pen, p.AtColumn i → f p = g p) :
    WritesPart tok i f ts := by
  intro p hp
  rw [heq p hp]
  exact h p hp

theorem WritesPart.isOpen_eq (h : WritesPart tok i f ts) {p : Pen} (hp : p.AtColumn i) :
    (f p).isOpen = false := by
  obtain ⟨x, -, -, hwrites, -⟩ := h p hp
  exact hwrites.isOpen_eq hp.isOpen_eq

/-- An indicator and the content behind it. -/
theorem WritesContent.behind (m : Scan.Indicator) (hmark : isKept m.mark = true)
    (h : WritesContent (.inline i) f ts) :
    WritesPart m.block i (fun p => f (p.indicator [m.mark] true false true)) (m.token :: ts) := by
  intro p hp
  obtain ⟨hindicator, hstands⟩ := hp.writes_indicator m.mark
  obtain ⟨w, hfits, hkept, hwrites, hended⟩ := h _ hstands
  exact ⟨m.mark :: w, hfits.isPart m, List.forall_mem_cons.2 ⟨hmark, hkept⟩,
    hindicator.trans hwrites, hended⟩

/-- A part below another. -/
theorem WritesPart.below (hf : WritesPart tok i f ts) (hg : WritesPart tok i g us) :
    WritesPart tok i (fun p => g ((f p).indentTo i)) (ts ++ us) := by
  intro p hp
  obtain ⟨x, hx, hxkept, hxwrites, hxended⟩ := hf p hp
  obtain ⟨y, hy, hykept, hywrites, hyended⟩ :=
    hg _ (atColumn_indentTo (hxwrites.isOpen_eq hp.isOpen_eq) i)
  refine ⟨x ++ freshLine i y, hx.append hy, ?_, ?_, hyended⟩
  · exact List.forall_mem_append.2 ⟨hxkept, isKept_freshLine i hykept⟩
  · rw [freshLine_eq_append]
    exact hxwrites.trans ((hxended.writes_indentTo i).trans hywrites)

theorem isKept_gap (slot : Slot) (i : Nat) : ∀ c ∈ slot.gap i, isKept c = true := by
  cases slot with
  | inline => exact List.forall_mem_singleton.2 (by decide)
  | under => exact isKept_freshLine i (List.forall_mem_nil _)

/-- A block inside a part. -/
theorem WritesPart.nested (h : WritesPart tok (slot.column + 2) f ts) :
    WritesContent slot (fun p => f (p.indentTo (slot.column + 2))) (tok :: (ts ++ [.blockEnd])) := by
  intro p hp
  obtain ⟨x, hx, hkept, hwrites, hended⟩ := h _ (atColumn_indentTo hp.isOpen_eq _)
  exact ⟨_, hx.fits, List.forall_mem_append.2 ⟨isKept_gap _ _, hkept⟩,
    (hp.writes_indentTo fun _ => rfl).trans hwrites, hended⟩

/-- A block at the column of the key before it. -/
theorem WritesPart.hanging (h : WritesPart tok i f ts) :
    WritesContent (.under i) (fun p => f (p.indentTo i)) ts := by
  intro p hp
  obtain ⟨x, hx, hkept, hwrites, hended⟩ := h _ (atColumn_indentTo hp.isOpen_eq _)
  refine ⟨_, hx.fits_under, isKept_freshLine i hkept, ?_, hended⟩
  rw [freshLine_eq_append]
  exact (hp.writes_indentTo nofun).trans hwrites

/-! ## Blocks -/

section Blocks

variable {α β : Type} {write : α → Pen → Pen} {as : List α}

/-- Write parts one below the other. -/
def Pen.writeAll (write : α → Pen → Pen) (i : Nat) : List α → Pen → Pen
  | [], p => p
  | a :: as, p => writeAll write i as (write a (p.indentTo i))

theorem Pen.writeAll_indentTo {p : Pen} (hp : p.isOpen = false) (hne : as ≠ []) :
    writeAll write i as (p.indentTo i) = writeAll write i as p := by
  obtain ⟨a, as, rfl⟩ := List.exists_cons_of_ne_nil hne
  rw [writeAll, writeAll, (atColumn_indentTo hp i).indentTo_eq]

/-- If each part is written, so are all of them. -/
theorem exists_parts {make : β → α} {tokens : β → List Token} {good : β → Prop} (hne : as ≠ [])
    (h : ∀ a ∈ as, ∃ b, make b = a ∧ good b ∧ WritesPart tok i (write a) (tokens b)) :
    ∃ bs : List β, bs.map make = as ∧ (∀ b ∈ bs, good b) ∧
      WritesPart tok i (writeAll write i as) (bs.flatMap tokens) := by
  induction as with
  | nil => exact absurd rfl hne
  | cons a as ih =>
    obtain ⟨⟨b, hmake, hgood, hfirst⟩, hothers⟩ := List.forall_mem_cons.1 h
    cases as with
    | nil =>
      refine ⟨[b], congrArg ([·]) hmake, List.forall_mem_singleton.2 hgood, ?_⟩
      rw [List.flatMap_singleton]
      refine hfirst.congr fun p hp => ?_
      rw [writeAll, writeAll, hp.indentTo_eq]
    | cons a' as =>
      obtain ⟨bs, hmakes, hgoods, hrest⟩ := ih (List.cons_ne_nil _ _) hothers
      refine ⟨b :: bs, ?_, List.forall_mem_cons.2 ⟨hgood, hgoods⟩, ?_⟩
      · rw [List.map_cons, hmake, hmakes]
      · refine (hfirst.below hrest).congr fun p hp => ?_
        rw [writeAll, hp.indentTo_eq,
          writeAll_indentTo (hfirst.isOpen_eq hp) (List.cons_ne_nil _ _)]

end Blocks

/-- A node that stands there may be written in the slot. -/
def Slot.suits : Slot → Place → Bool
  | _, .entry => true
  | .inline _, .item => true
  | _, _ => false

namespace Node

variable {place : Place} {tag : Tag} {cs : List Char} {n k v : Node} {ns : List Node}
  {es : List (Node × Node)}

/-- What is written for a node in a slot is read as the node. -/
def IsContent (slot : Slot) (place : Place) (n : Node) : Prop :=
  ∃ ts, Reading.Reads true (place == .entry) ts n ∧
    WritesContent slot (fun p => renderNode p place (some slot.column) n) ts

/-! ## Scalars and empty collections -/

theorem isContent_scalar (h : IsReadable (slot.column + 2) tag cs) (hplace : slot.suits place = true) :
    IsContent slot place (.scalar tag cs) := by
  have hother : place ≠ .key ∧ place ≠ .root := by
    constructor <;> rintro rfl <;> cases slot <;> cases hplace
  have hroot : (place == .root) = false := beq_eq_false_iff_ne.2 hother.2
  obtain ⟨isPlain, htag, hspelling⟩ := exists_spelling (some slot.column) h hother.1
  refine ⟨[.scalar cs isPlain], htag ▸ Reading.Reads.scalar cs isPlain, fun p hp => ?_⟩
  obtain ⟨w, hw, hopen⟩ := hspelling hp.isOpen_eq
  have hreversed := hw.reversed_eq
  rw [hp.lead_eq] at hreversed
  rw [hroot, Bool.false_and] at hopen
  exact ⟨' ' :: w, hw.spells.isLeaf.fits (Nat.le_succ _),
    List.forall_mem_cons.2 ⟨by decide, hw.spells.kept⟩, ⟨hreversed, fun _ => hopen⟩, hw.ended⟩

theorem writesContent_empty {opening closing : Char} {opens closes : Token}
    (hkept : isKept opening = true) (hkept' : isKept closing = true)
    (h : IsLeaf (slot.column + 1) [opening, closing] [opens, closes]) :
    WritesContent slot (fun p => renderEmpty p opening closing) [opens, closes] := by
  intro p hp
  refine ⟨[' ', opening, closing], h.fits (Nat.le_refl _), ?_, ?_, rfl, Bool.and_false _⟩
  · exact List.forall_mem_cons.2
      ⟨by decide, List.forall_mem_cons.2 ⟨hkept, List.forall_mem_singleton.2 hkept'⟩⟩
  · have hwrites := Pen.writes_indicator p [opening] true false
    rw [hp.lead_eq] at hwrites
    exact hwrites.trans (writes_mark _ [closing] false false)

theorem isLeaf_emptySequence (indent : Nat) :
    IsLeaf indent ['[', ']'] [.openBracket, .closeBracket] :=
  isLeaf_brackets rfl rfl Scan.fetch_openBracket Scan.fetch_closeBracket indent

theorem isLeaf_emptyMapping (indent : Nat) :
    IsLeaf indent ['\x7b', '\x7d'] [.openBrace, .closeBrace] :=
  isLeaf_brackets rfl rfl Scan.fetch_openBrace Scan.fetch_closeBrace indent

/-! ## Sequences -/

/-- Write an item behind its dash. -/
def writeItem (i : Nat) (n : Node) (p : Pen) : Pen :=
  renderNode (p.indicator ['-'] true false true) .item (some i) n

theorem renderItems_eq (p : Pen) (i : Nat) (ns : List Node) :
    renderItems p i ns = writeAll (writeItem i) i ns p := by
  induction ns generalizing p with
  | nil => rw [renderItems_nil, writeAll]
  | cons n ns ih =>
    rw [renderItems_cons, writeAll]
    exact ih _

theorem exists_items (hne : ns ≠ []) (h : ∀ n ∈ ns, IsContent (.inline i) .item n) :
    ∃ xs : List (List Token × Node), xs.map Prod.snd = ns ∧
      (∀ x ∈ xs, Reading.Reads true false x.1 x.2) ∧
      WritesPart .sequenceBlock i (writeAll (writeItem i) i ns) (xs.flatMap (.dash :: ·.1)) := by
  refine exists_parts hne fun n hn => ?_
  obtain ⟨ts, hreads, hwrites⟩ := h n hn
  exact ⟨(ts, n), rfl, hreads, hwrites.behind .dash (by decide)⟩

theorem isContent_sequence (hplace : slot.suits place = true)
    (h : ∀ n ∈ ns, IsContent (.inline (slot.sequenceColumn)) .item n) :
    IsContent slot place (.sequence .sequence ns) := by
  by_cases hne : ns = []
  · subst hne
    refine ⟨[.openBracket, .closeBracket], Reading.Reads.emptySequence, ?_⟩
    refine (writesContent_empty (by decide) (by decide) (isLeaf_emptySequence _)).congr fun p _ => ?_
    rw [renderNode_sequence]
    rfl
  · obtain ⟨xs, rfl, hreads, hwrites⟩ := exists_items hne h
    have hrender : ∀ p : Pen, p.StandsIn slot →
        renderNode p place (some slot.column) (.sequence .sequence (xs.map Prod.snd)) =
          writeAll (writeItem slot.sequenceColumn) slot.sequenceColumn (xs.map Prod.snd)
            (p.indentTo slot.sequenceColumn) := by
      intro p hp
      have hindent : itemIndent p place (some slot.column) = slot.sequenceColumn := by
        unfold itemIndent
        rw [hp.atIndent_eq]
        cases slot with
        | inline => exact if_neg (by simp [Slot.isInline])
        | under =>
          have hentry : place = .entry := by cases place <;> first | rfl | cases hplace
          rw [hentry]
          rfl
      rw [renderNode_sequence, List.isEmpty_eq_false_iff.2 hne, if_neg Bool.false_ne_true,
        writeAll_indentTo hp.isOpen_eq hne, ← renderItems_eq, ← hindent]
      rfl
    cases slot with
    | inline i => exact ⟨_, Reading.Reads.blockSequence hreads, hwrites.nested.congr hrender⟩
    | under i =>
      have hentry : place = .entry := by cases place <;> first | rfl | cases hplace
      have hsome : xs ≠ [] := fun hxs => hne (congrArg _ hxs)
      subst hentry
      exact ⟨_, Reading.Reads.hangingSequence hsome hreads, hwrites.hanging.congr hrender⟩

/-! ## Mappings -/

/-- Write an entry: behind its key a colon, on a line of its own if the key is not simple. -/
def writeEntry (i : Nat) (e : Node × Node) (p : Pen) : Pen :=
  let p :=
    if e.1.isSimpleKey then (renderNode p .key (some i) e.1).indicator [':'] false false false
    else
      let p := renderNode (p.indicator ['?'] true false true) .entry (some i) e.1
      (p.indentTo i).indicator [':'] true false true
  renderNode p .entry (some i) e.2

theorem renderEntries_eq (p : Pen) (i : Nat) (es : List (Node × Node)) :
    renderEntries p i es = writeAll (writeEntry i) i es p := by
  induction es generalizing p with
  | nil => rw [renderEntries_nil, writeAll]
  | cons e es ih =>
    obtain ⟨k, v⟩ := e
    rw [renderEntries_cons, writeAll]
    exact ih _

/-- What is written for an entry is read as the entry. -/
def IsEntry (i : Nat) (e : Node × Node) : Prop :=
  ∃ x, Reading.entryNodes x = e ∧
    (Reading.Reads true true x.1.1 x.1.2 ∧ Reading.Reads true true x.2.1 x.2.2) ∧
    WritesPart .mappingBlock i (writeEntry i e) (Reading.entryTokens x)

theorem isEntry_simple (hsafe : isSafeText (i + 2) true cs = true)
    (hsimple : (scalar .text cs).isSimpleKey = true) (hv : IsContent (.under i) .entry v) :
    IsEntry i (.scalar .text cs, v) := by
  obtain ⟨isPlain, htag, hspelling⟩ := exists_keySpelling (some i) hsafe hsimple
  obtain ⟨ts, hreads, hwrites⟩ := hv
  refine ⟨(([.scalar cs isPlain], .scalar .text cs), (ts, v)), rfl,
    ⟨htag ▸ Reading.Reads.scalar cs isPlain, hreads⟩, fun p hp => ?_⟩
  obtain ⟨w, hw⟩ := hspelling hp.isOpen_eq
  let q := renderScalar p .key (some i) .text cs
  have hkey : p.Writes w q := by
    have hreversed := hw.reversed_eq
    rw [hp.lead_eq] at hreversed
    exact ⟨hreversed, fun _ => hw.isOpen_eq⟩
  obtain ⟨hcolon, hstands⟩ := q.writes_colon i
  obtain ⟨u, hfits, hkept, hvalue, hended⟩ := hwrites _ hstands
  have hentry : writeEntry i (.scalar .text cs, v) p =
      renderNode (q.indicator [':'] false false false) .entry (some i) v := by
    unfold writeEntry
    rw [hsimple, if_pos rfl, renderNode_scalar]
  rw [hentry]
  refine ⟨w ++ ':' :: u, hfits.isEntry hw.spells hw.isInline hw.length_le (Nat.le_succ _), ?_, ?_,
    hended⟩
  · exact List.forall_mem_append.2 ⟨hw.spells.kept, List.forall_mem_cons.2 ⟨by decide, hkept⟩⟩
  · exact hkey.trans (hcolon.trans hvalue)

theorem isEntry_complex (hsimple : k.isSimpleKey = false) (hk : IsContent (.inline i) .entry k)
    (hv : IsContent (.inline i) .entry v) : IsEntry i (k, v) := by
  obtain ⟨ts, hkreads, hkwrites⟩ := hk
  obtain ⟨us, hvreads, hvwrites⟩ := hv
  refine ⟨((ts, k), (us, v)), rfl, ⟨hkreads, hvreads⟩, ?_⟩
  have hkey := hkwrites.behind .question (by decide)
  have hvalue := hvwrites.behind .colon (by decide)
  refine (hkey.below hvalue).congr fun p _ => ?_
  unfold writeEntry
  rw [hsimple, if_neg Bool.false_ne_true]
  rfl

theorem exists_entries (hne : es ≠ []) (h : ∀ e ∈ es, IsEntry i e) :
    ∃ xs : List ((List Token × Node) × (List Token × Node)), xs.map Reading.entryNodes = es ∧
      (∀ x ∈ xs, Reading.Reads true true x.1.1 x.1.2 ∧ Reading.Reads true true x.2.1 x.2.2) ∧
      WritesPart .mappingBlock i (writeAll (writeEntry i) i es) (xs.flatMap Reading.entryTokens) :=
  exists_parts hne h

theorem isContent_mapping (h : ∀ e ∈ es, IsEntry (slot.column + 2) e) :
    IsContent slot place (.mapping .mapping es) := by
  by_cases hne : es = []
  · subst hne
    refine ⟨[.openBrace, .closeBrace], Reading.Reads.emptyMapping, ?_⟩
    refine (writesContent_empty (by decide) (by decide) (isLeaf_emptyMapping _)).congr fun p _ => ?_
    rw [renderNode_mapping]
    rfl
  · obtain ⟨xs, rfl, hreads, hwrites⟩ := exists_entries hne h
    refine ⟨_, Reading.Reads.blockMapping (fun x hx => (hreads x hx).1) (fun x hx => (hreads x hx).2),
      hwrites.nested.congr fun p hp => ?_⟩
    rw [renderNode_mapping, List.isEmpty_eq_false_iff.2 hne, if_neg Bool.false_ne_true,
      writeAll_indentTo hp.isOpen_eq hne, ← renderEntries_eq]
    rfl

end Node
end Stencil.Yaml
