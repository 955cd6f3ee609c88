import Stencil.Yaml.Scalar.Gap

/-!
# Block scalars

A block scalar is a header and the lines below it that stand at its indentation, which the header
gives or the first line shows. A literal block keeps its line breaks; a folded one joins two lines
with a space if neither begins with a blank. The header says whether the line breaks at the end are
stripped, clipped to one, or all kept.
-/

namespace Stencil.Yaml.Block

/-- What becomes of the line breaks at the end. -/
inductive Chomping where
  | strip
  | clip
  | keep
deriving DecidableEq

/-- The header of a block: what becomes of the line breaks at the end, and the indentation if it is
given. -/
structure Header where
  chomping : Chomping := .clip
  increment? : Option Nat := none

/-- What a mark for the end says. -/
def chomping? (c : Char) : Option Chomping :=
  if c == '+' then some .keep else if c == '-' then some .strip else none

/-- The number of a digit. -/
def digit? (c : Char) : Option Nat := if c.isDigit then some (c.toNat - 0x30) else none

/-- The marks of a header in either order, and the rest. -/
def marks : List Char → Header × List Char
  | [] => ({}, [])
  | c :: cs =>
    match chomping? c, digit? c with
    | some h, _ =>
      match cs with
      | d :: rest =>
        match digit? d with
        | some n => (⟨h, some n⟩, rest)
        | none => (⟨h, none⟩, cs)
      | [] => (⟨h, none⟩, [])
    | none, some n =>
      match cs with
      | d :: rest =>
        match chomping? d with
        | some h => (⟨h, some n⟩, rest)
        | none => (⟨.clip, some n⟩, cs)
      | [] => (⟨.clip, some n⟩, [])
    | none, none => ({}, c :: cs)

/-- The rest of a text behind spaces, a comment and the line break, if nothing else stands on the
line. -/
def restOfLine? (cs : List Char) : Option (List Char) :=
  let cs := cs.dropWhile (· == ' ')
  match (if cs.head? == some '#' then cs.dropWhile (!isBreak ·) else cs) with
  | [] => some []
  | c :: rest => if isBreak c then some rest else none

/-- A header and the text below it. -/
def header? (cs : List Char) : Option (Header × List Char) :=
  let (h, rest) := marks cs
  if h.increment? == some 0 || !endsWord rest then none
  else (restOfLine? rest).map (h, ·)

/-- The greatest indentation among the blank lines at the start, and that of the first other line.
`column` counts the spaces since the last line break. -/
def leading (column : Nat) : List Char → Nat
  | [] => column
  | c :: cs =>
    if c == ' ' then leading (column + 1) cs
    else if isBreak c then max column (leading 0 cs)
    else column

/-- The text that joins a line to the next. -/
def joint (isFolded leadsWord : Bool) (first : List Char) (reversed : List Char) (next : Char) :
    List Char :=
  (if isFolded && first == ['\n'] && leadsWord && !isGap next then
    if reversed.isEmpty then [' '] else []
  else first) ++ reversed.reverse

/-- What is left of the line breaks at the end. -/
def Chomping.tail (h : Chomping) (first reversed : List Char) : List Char :=
  match h with
  | strip => []
  | clip => first
  | keep => first ++ reversed.reverse

/-- Where the reading of a block stands. -/
inductive Mode where
  /-- Inside a line; `leadsWord` says that the line does not begin with a blank. -/
  | line (leadsWord : Bool)
  /-- Behind line breaks: the first, the others backwards, and the spaces since the last. -/
  | gap (leadsWord : Bool) (first reversed : List Char) (column : Nat)

/-- Read on: the text of the block and what comes behind it. `out` is the text so far, backwards. -/
def scanFrom (isFolded : Bool) (h : Chomping) (indent : Nat) (out : List Char) (mode : Mode) :
    List Char → List Char × List Char
  | [] =>
    match mode with
    | .line _ => (out.reverse, [])
    | .gap _ first reversed _ => (out.reverse ++ h.tail first reversed, [])
  | c :: rest =>
    match mode with
    | .line leadsWord =>
      if isBreak c then
        scanFrom isFolded h indent out (.gap leadsWord [breakChar c] [] 0) rest
      else scanFrom isFolded h indent (c :: out) mode rest
    | .gap leadsWord first reversed column =>
      if c == ' ' && column < indent then
        scanFrom isFolded h indent out (.gap leadsWord first reversed (column + 1)) rest
      else if isBreak c then
        scanFrom isFolded h indent out (.gap leadsWord first (breakChar c :: reversed) 0) rest
      else if column == indent then
        let out := (joint isFolded leadsWord first reversed c).reverse ++ out
        scanFrom isFolded h indent (c :: out) (.line (!isGap c)) rest
      else (out.reverse ++ h.tail first reversed, c :: rest)

/-- Read a block scalar behind its indicator. The lines stand at the margin or behind it. -/
def scan? (isFolded : Bool) (margin : Nat) (cs : List Char) : Option (List Char × List Char) :=
  (header? cs).map fun (h, cs) =>
    let least := max margin 1
    let indent := match h.increment? with
      | some n => least + n - 1
      | none => max least (leading 0 cs)
    scanFrom isFolded h.chomping indent [] (.gap false [] [] 0) cs

/-! ## Basic facts -/

/-- Literal, folded and indented blocks. -/
example : ["\n a\n\n b\n\nc", "-\n a\n  b\n", "+ # note\n a\n\n", "2\n   a\n"].map
      (fun s : String => (scan? false 0 s.toList).map fun r => (String.ofList r.1, r.2.length)) =
      [some ("a\n\nb\n", 1), some ("a\n b", 0), some ("a\n\n", 0), some (" a\n", 0)] ∧
    (scan? true 0 "\n a\n b\n\n c\n  d\n".toList).map (fun r => String.ofList r.1) =
      some "a b\nc\n d\n" := by decide +kernel

end Stencil.Yaml.Block
