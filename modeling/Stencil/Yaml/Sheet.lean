import Stencil.Value.Part
import Stencil.Yaml.Tag

/-!
# Sheets

A node as it is written. A part that stands in several places is written in the first of them, behind
an anchor, and the other places refer to it.

**References** (`draw`). The parts of a node have names, as far as they are objects that are told
apart. A name that was met before is referred to, and what is behind a reference is not looked at.

**Anchors** (`number`). Only what is referred to has an anchor, and the anchors are numbered in the
order of the first references to them.
-/

namespace Stencil.Yaml

/-- What is written for a node. -/
inductive Sheet where
  /-- What stands behind an anchor. -/
  | reference (anchor : Nat)
  | scalar (anchor? : Option Nat) (tag : Tag) (text : List Char)
  | sequence (anchor? : Option Nat) (tag : Tag) (items : List Sheet)
  | mapping (anchor? : Option Nat) (tag : Tag) (entries : List (Sheet × Sheet))
deriving Inhabited

namespace Sheet

/-! ## References -/

/-- A reference to a name that was met before, or else what is written for the part. -/
def meet (name? : Option Nat) (met : List Nat) (part : List Nat → Sheet × List Nat) :
    Sheet × List Nat :=
  match name? with
  | some name => if met.contains name then (.reference name, met) else part (name :: met)
  | none => part met

mutual

/-- The sheet of a node, with names in the place of anchors, and the names that were met by its
end. -/
def draw (names : Position → Option Nat) (met : List Nat) : Node → Sheet × List Nat
  | .scalar tag cs => meet (names []) met fun met => (.scalar (names []) tag cs, met)
  | .sequence tag items => meet (names []) met fun met =>
    let (sheets, met) := drawItems names met items
    (.sequence (names []) tag sheets, met)
  | .mapping tag entries => meet (names []) met fun met =>
    let (sheets, met) := drawEntries names met entries
    (.mapping (names []) tag sheets, met)

/-- The sheets of items. -/
def drawItems (names : Position → Option Nat) (met : List Nat) : List Node → List Sheet × List Nat
  | [] => ([], met)
  | n :: ns =>
    let (sheet, met) := draw (Position.first names) met n
    let (sheets, met) := drawItems (Position.rest names) met ns
    (sheet :: sheets, met)

/-- The sheets of entries. -/
def drawEntries (names : Position → Option Nat) (met : List Nat) :
    List (Node × Node) → List (Sheet × Sheet) × List Nat
  | [] => ([], met)
  | (k, v) :: es =>
    let (key, met) := draw (Position.first names) met k
    let (value, met) := draw (Position.first (Position.rest names)) met v
    let (sheets, met) := drawEntries (Position.rest (Position.rest names)) met es
    ((key, value) :: sheets, met)

end

/-! ## Anchors -/

mutual

/-- The references in a sheet, in order. -/
def references : Sheet → List Nat
  | reference name => [name]
  | scalar .. => []
  | sequence _ _ items => itemReferences items
  | mapping _ _ entries => entryReferences entries

/-- The references in items. -/
def itemReferences : List Sheet → List Nat
  | [] => []
  | s :: ss => s.references ++ itemReferences ss

/-- The references in entries. -/
def entryReferences : List (Sheet × Sheet) → List Nat
  | [] => []
  | (k, v) :: es => k.references ++ v.references ++ entryReferences es

end

/-- The number of the anchor for a name, counted from one, if it is one of some. -/
def anchorOf? (names : List Nat) (name? : Option Nat) : Option Nat :=
  name?.bind fun name => if names.contains name then some (names.idxOf name + 1) else none

mutual

/-- A sheet with numbers in the place of some names and without the others. -/
def number (names : List Nat) : Sheet → Sheet
  | reference name => .reference (names.idxOf name + 1)
  | scalar name? tag cs => .scalar (anchorOf? names name?) tag cs
  | sequence name? tag items => .sequence (anchorOf? names name?) tag (numberItems names items)
  | mapping name? tag entries => .mapping (anchorOf? names name?) tag (numberEntries names entries)

/-- Items with numbers in the place of some names. -/
def numberItems (names : List Nat) : List Sheet → List Sheet
  | [] => []
  | s :: ss => s.number names :: numberItems names ss

/-- Entries with numbers in the place of some names. -/
def numberEntries (names : List Nat) : List (Sheet × Sheet) → List (Sheet × Sheet)
  | [] => []
  | (k, v) :: es => (k.number names, v.number names) :: numberEntries names es

end

/-- The sheet of a node whose parts have names. -/
def ofNode (names : Position → Option Nat) (n : Node) : Sheet :=
  let sheet := (draw names [] n).1
  sheet.number sheet.references.eraseDups

/-! ## Sheets without anchors -/

mutual

/-- The sheet of a node none of whose parts has a name. -/
def bare : Node → Sheet
  | .scalar tag cs => .scalar none tag cs
  | .sequence tag items => .sequence none tag (bareItems items)
  | .mapping tag entries => .mapping none tag (bareEntries entries)

/-- The sheets of items without names. -/
def bareItems : List Node → List Sheet
  | [] => []
  | n :: ns => bare n :: bareItems ns

/-- The sheets of entries without names. -/
def bareEntries : List (Node × Node) → List (Sheet × Sheet)
  | [] => []
  | (k, v) :: es => (bare k, bare v) :: bareEntries es

end

mutual

theorem draw_bare (met : List Nat) (n : Node) : draw (fun _ => none) met n = (bare n, met) := by
  cases n with
  | scalar tag cs => simp [draw, meet, bare]
  | sequence tag items => simp [draw, meet, bare, drawItems_bare met items]
  | mapping tag entries => simp [draw, meet, bare, drawEntries_bare met entries]

theorem drawItems_bare (met : List Nat) (ns : List Node) :
    drawItems (fun _ => none) met ns = (bareItems ns, met) := by
  cases ns with
  | nil => simp [drawItems, bareItems]
  | cons n ns => simp [drawItems, bareItems, draw_bare met n, drawItems_bare met ns]

theorem drawEntries_bare (met : List Nat) (es : List (Node × Node)) :
    drawEntries (fun _ => none) met es = (bareEntries es, met) := by
  cases es with
  | nil => simp [drawEntries, bareEntries]
  | cons e es =>
    obtain ⟨k, v⟩ := e
    simp [drawEntries, bareEntries, draw_bare met k, draw_bare met v, drawEntries_bare met es]

end

mutual

theorem number_bare (names : List Nat) (n : Node) : (bare n).number names = bare n := by
  cases n with
  | scalar tag cs => simp [bare, number, anchorOf?]
  | sequence tag items => simp [bare, number, anchorOf?, numberItems_bare names items]
  | mapping tag entries => simp [bare, number, anchorOf?, numberEntries_bare names entries]

theorem numberItems_bare (names : List Nat) (ns : List Node) :
    numberItems names (bareItems ns) = bareItems ns := by
  cases ns with
  | nil => simp [bareItems, numberItems]
  | cons n ns => simp [bareItems, numberItems, number_bare names n, numberItems_bare names ns]

theorem numberEntries_bare (names : List Nat) (es : List (Node × Node)) :
    numberEntries names (bareEntries es) = bareEntries es := by
  cases es with
  | nil => simp [bareEntries, numberEntries]
  | cons e es =>
    obtain ⟨k, v⟩ := e
    simp [bareEntries, numberEntries, number_bare names k, number_bare names v,
      numberEntries_bare names es]

end

/-- A node whose parts are all apart is written without anchors. -/
@[simp] theorem ofNode_bare (n : Node) : ofNode (fun _ => none) n = bare n := by
  rw [ofNode, draw_bare]
  exact number_bare _ n

/-- Of three items the second and the third are the first one, and what is in it is no more to be
named. -/
example : ofNode (fun p => if p = [] then none else if p.length = 1 then some 7 else some 8)
      (.sequence .sequence [.sequence .sequence [.scalar .int ['1']], .scalar .null [],
        .scalar .null []]) =
    .sequence none .sequence [.sequence (some 1) .sequence [.scalar none .int ['1']],
      .reference 1, .reference 1] := rfl

end Sheet
end Stencil.Yaml
