import Stencil.Number.Integer
import Stencil.Yaml.Pen
import Stencil.Yaml.Sheet

/-!
# Writing documents

The text of a sheet in block style, and so of a node. A sequence as the value of a key is not
indented, an item that is itself a block goes on behind its dash, empty collections are written in
brackets, and a key that is too long or does not fit on one line stands behind a question mark with
its value behind a colon. Lines of scalars are folded past the width of the pen. A plain scalar that
is a whole document is followed by an end marker. Anchors stand before tags.
-/

namespace Stencil.Yaml

/-- Where a node stands. -/
inductive Place where
  | root
  | item
  | entry
  | key
deriving DecidableEq

/-- The indentation inside a block or a scalar, one level below another; the outermost is given by
`outermost`. -/
def deeper (outermost : Nat) : Option Nat → Nat
  | none => outermost
  | some n => n + 2

/-- The tag would be given to the text of a plain scalar. -/
def isPlainTag (tag : Tag) (cs : List Char) : Bool := plainTag standardRules cs == tag

/-- Write a scalar. Its tag is written unless its text implies it in the style chosen. -/
def renderScalar (p : Pen) (place : Place) (indent : Option Nat) (tag : Tag) (cs : List Char) : Pen :=
  let isKey := place == .key
  let style := Style.choose tag (isPlainTag tag cs) isKey (Traits.ofText cs)
  let implied := if style == .plain then isPlainTag tag cs else tag == .text
  let p := if implied then p else p.indicator tag.shorthand true false false
  let indent := deeper 2 indent
  match style with
  | .plain => p.plain indent (place == .root) (!isKey) cs
  | .single => p.single indent (!isKey) cs
  | .double => p.double indent (!isKey) cs
  | .literal => p.literal indent cs

/-- The longest key that is written on one line. -/
def simpleKeyLimit : Nat := 128

/-- The name of an anchor, which has three digits at least. -/
def anchorName (anchor : Nat) : List Char :=
  let digits := Integer.digits anchor
  ['i', 'd'] ++ List.replicate (3 - digits.length) '0' ++ digits

/-- Write an anchor, if there is one. -/
def renderAnchor (p : Pen) : Option Nat → Pen
  | some anchor => p.indicator ('&' :: anchorName anchor) true false false
  | none => p

/-- The length of an anchor and a tag as they are written. -/
def markLength (anchor? : Option Nat) (tag : Tag) : Nat :=
  ((anchor?.map anchorName).getD []).length + tag.shorthand.length

/-- Write the tag of a collection unless it is the usual one. -/
def renderTag (p : Pen) (tag usual : Tag) : Pen :=
  if tag = usual then p else p.indicator tag.shorthand true false false

/-- Write an empty collection. -/
def renderEmpty (p : Pen) (opening closing : Char) : Pen :=
  (p.indicator [opening] true true false).indicator [closing] false false false

/-- The indentation of the items of a sequence: that of the key whose value it is on a line of its
own, else one level deeper. -/
def itemIndent (p : Pen) (place : Place) (indent : Option Nat) : Nat :=
  match indent with
  | some n => if place == .entry && !p.atIndent then n else n + 2
  | none => 0

namespace Sheet

/-- A part can be a key on one line. -/
def isSimpleKey : Sheet → Bool
  | reference anchor => (anchorName anchor).length < simpleKeyLimit
  | scalar anchor? tag cs =>
    !cs.isEmpty && !cs.any isBreak && markLength anchor? tag + cs.length < simpleKeyLimit
  | sequence anchor? tag items => items.isEmpty && markLength anchor? tag < simpleKeyLimit
  | mapping anchor? tag entries => entries.isEmpty && markLength anchor? tag < simpleKeyLimit

mutual

/-- Write a part of a sheet. -/
def renderPart (p : Pen) (place : Place) (indent : Option Nat) : Sheet → Pen
  | reference anchor => p.indicator ('*' :: anchorName anchor) true false false
  | scalar anchor? tag cs => renderScalar (renderAnchor p anchor?) place indent tag cs
  | sequence anchor? tag items =>
    let p := renderTag (renderAnchor p anchor?) tag .sequence
    if items.isEmpty then renderEmpty p '[' ']'
    else renderItems p (itemIndent p place indent) items
  | mapping anchor? tag entries =>
    let p := renderTag (renderAnchor p anchor?) tag .mapping
    if entries.isEmpty then renderEmpty p '\x7b' '\x7d'
    else renderEntries p (deeper 0 indent) entries

/-- Write the items of a sequence, each behind a dash. -/
def renderItems (p : Pen) (indent : Nat) : List Sheet → Pen
  | [] => p
  | s :: ss =>
    let p := (p.indentTo indent).indicator ['-'] true false true
    renderItems (renderPart p .item (some indent) s) indent ss

/-- Write the entries of a mapping. -/
def renderEntries (p : Pen) (indent : Nat) : List (Sheet × Sheet) → Pen
  | [] => p
  | (k, v) :: es =>
    let p := p.indentTo indent
    let p :=
      if k.isSimpleKey then
        (renderPart p .key (some indent) k).indicator [':'] false false false
      else
        let p := renderPart (p.indicator ['?'] true false true) .entry (some indent) k
        (p.indentTo indent).indicator [':'] true false true
    renderEntries (renderPart p .entry (some indent) v) indent es

end

/-- The text of a document. -/
def render (s : Sheet) : List Char :=
  let p := (renderPart {} .root none s).indentTo 0
  let p := if p.isOpen then (p.indicator ['.', '.', '.'] true false false).indentTo 0 else p
  p.text

end Sheet

/-! ## Nodes without anchors -/

namespace Node

/-- A node can be a key on one line. -/
def isSimpleKey (n : Node) : Bool := (Sheet.bare n).isSimpleKey

/-- Write a node. -/
def renderNode (p : Pen) (place : Place) (indent : Option Nat) (n : Node) : Pen :=
  Sheet.renderPart p place indent (Sheet.bare n)

/-- Write the items of a sequence. -/
def renderItems (p : Pen) (indent : Nat) (ns : List Node) : Pen :=
  Sheet.renderItems p indent (Sheet.bareItems ns)

/-- Write the entries of a mapping. -/
def renderEntries (p : Pen) (indent : Nat) (es : List (Node × Node)) : Pen :=
  Sheet.renderEntries p indent (Sheet.bareEntries es)

/-- The text of a document. -/
def render (n : Node) : List Char := (Sheet.bare n).render

variable {p : Pen} {place : Place} {indent : Option Nat} {i : Nat} {tag : Tag} {cs : List Char}
  {n : Node} {ns : List Node} {k v : Node} {es : List (Node × Node)}

theorem isSimpleKey_scalar : isSimpleKey (.scalar tag cs) =
    (!cs.isEmpty && !cs.any isBreak && decide (tag.shorthand.length + cs.length < simpleKeyLimit)) := by
  simp [isSimpleKey, Sheet.bare, Sheet.isSimpleKey, markLength]

theorem renderNode_scalar :
    renderNode p place indent (.scalar tag cs) = renderScalar p place indent tag cs := by
  rw [renderNode, Sheet.bare, Sheet.renderPart, renderAnchor]

theorem isEmpty_bareItems : (Sheet.bareItems ns).isEmpty = ns.isEmpty := by
  cases ns <;> simp [Sheet.bareItems]

theorem isEmpty_bareEntries : (Sheet.bareEntries es).isEmpty = es.isEmpty := by
  cases es <;> simp [Sheet.bareEntries]

theorem renderNode_sequence : renderNode p place indent (.sequence tag ns) =
    let p := renderTag p tag .sequence
    if ns.isEmpty then renderEmpty p '[' ']' else renderItems p (itemIndent p place indent) ns := by
  rw [renderNode, Sheet.bare, Sheet.renderPart, renderAnchor, isEmpty_bareItems]
  rfl

theorem renderNode_mapping : renderNode p place indent (.mapping tag es) =
    let p := renderTag p tag .mapping
    if es.isEmpty then renderEmpty p '\x7b' '\x7d' else renderEntries p (deeper 0 indent) es := by
  rw [renderNode, Sheet.bare, Sheet.renderPart, renderAnchor, isEmpty_bareEntries]
  rfl

theorem renderItems_nil : renderItems p i [] = p := by
  rw [renderItems, Sheet.bareItems, Sheet.renderItems]

theorem renderItems_cons : renderItems p i (n :: ns) =
    renderItems (renderNode ((p.indentTo i).indicator ['-'] true false true) .item (some i) n)
      i ns := by
  rw [renderItems, Sheet.bareItems, Sheet.renderItems]
  rfl

theorem renderEntries_nil : renderEntries p i [] = p := by
  rw [renderEntries, Sheet.bareEntries, Sheet.renderEntries]

theorem renderEntries_cons : renderEntries p i ((k, v) :: es) =
    let p := p.indentTo i
    let p :=
      if k.isSimpleKey then (renderNode p .key (some i) k).indicator [':'] false false false
      else
        let p := renderNode (p.indicator ['?'] true false true) .entry (some i) k
        (p.indentTo i).indicator [':'] true false true
    renderEntries (renderNode p .entry (some i) v) i es := by
  rw [renderEntries, Sheet.bareEntries, Sheet.renderEntries]
  rfl

theorem render_eq : n.render =
    let p := (renderNode {} .root none n).indentTo 0
    let p := if p.isOpen then (p.indicator ['.', '.', '.'] true false false).indentTo 0 else p
    p.text := rfl

end Node

/-! ## Basic facts -/

/-- A sequence under a key, a key that is empty, and a scalar on its own. -/
example :
    let doc : Node := .mapping .mapping [(.scalar .text "k".toList,
      .sequence .sequence [.scalar .text "a: b".toList]), (.scalar .text [], .scalar .int ['1'])]
    String.ofList doc.render = "k:\n- 'a: b'\n? ''\n: 1\n" ∧
      String.ofList (Node.scalar .bool "true".toList).render = "true\n...\n" := by decide +kernel

/-- A sequence that is its own item, and a scalar that stands twice. -/
example :
    let shared : Sheet := .mapping none .mapping
      [(.scalar (some 1) .timestamp "2001-01-01".toList, .reference 1)]
    String.ofList (Sheet.sequence (some 1) .sequence [.reference 1]).render = "&id001\n- *id001\n" ∧
      String.ofList shared.render = "&id001 2001-01-01: *id001\n" := by decide +kernel

end Stencil.Yaml
