import Stencil.Yaml.Style

/-!
# The pen

What has been written so far and where the pen stands. A `Pen` knows its column, whether a blank
stands before it, and whether nothing but indentation does; from these it decides where blanks and
line breaks go.
-/

namespace Stencil.Yaml

/-- The state of writing. -/
structure Pen where
  /-- What has been written, backwards. -/
  reversed : List Char := []
  column : Nat := 0
  /-- A blank or a line break stands before the pen. -/
  afterBlank : Bool := true
  /-- Nothing but indentation and indicators that count as such stands on the line. -/
  atIndent : Bool := true
  /-- The document needs an end marker if nothing else follows. -/
  isOpen : Bool := false

namespace Pen

/-- The width past which a line is folded at the next chance. -/
def width : Nat := 80

/-- Write characters of the present line. -/
def put (p : Pen) (cs : List Char) : Pen :=
  { p with reversed := cs.reverse ++ p.reversed, column := p.column + cs.length }

/-- Write a line break. -/
def newline (p : Pen) (c : Char) : Pen :=
  { p with reversed := c :: p.reversed, column := 0, afterBlank := true, atIndent := true }

/-- Go to an indentation, on a new line unless the pen stands before it. -/
def indentTo (p : Pen) (indent : Nat) : Pen :=
  let p :=
    if !p.atIndent || indent < p.column || (p.column == indent && !p.afterBlank) then p.newline '\n'
    else p
  if p.column < indent then
    { p.put (List.replicate (indent - p.column) ' ') with afterBlank := true }
  else p

/-- Write an indicator, behind a blank where one is needed. `counts` says whether the indicator
counts as indentation. -/
def indicator (p : Pen) (cs : List Char) (needsBlank leavesBlank counts : Bool) : Pen :=
  let p' := p.put (if p.afterBlank || !needsBlank then cs else ' ' :: cs)
  { p' with afterBlank := leavesBlank, atIndent := p.atIndent && counts, isOpen := false }

/-- Break the line inside a scalar and go on at an indentation. -/
def fold (p : Pen) (indent : Nat) : Pen :=
  { p.indentTo indent with afterBlank := false, atIndent := false }

/-- What has been written. -/
def text (p : Pen) : List Char := p.reversed.reverse

/-! ## Runs of a text -/

/-- What a run of a text consists of. -/
inductive RunKind where
  | spaces
  | breaks
  | word
deriving DecidableEq

/-- The kind of run that a character belongs to. -/
def runKind (c : Char) : RunKind :=
  if c == ' ' then .spaces else if isBreak c then .breaks else .word

/-- The longest runs of characters of one kind. -/
def runs : List Char → List (RunKind × List Char)
  | [] => []
  | c :: cs =>
    match runs cs with
    | (kind, run) :: rest =>
      if kind = runKind c then (kind, c :: run) :: rest
      else (runKind c, [c]) :: (kind, run) :: rest
    | [] => [(runKind c, [c])]

/-! ## Plain and single-quoted scalars -/

/-- Write the runs of a plain text of one line. A single space past the width is where the line is
folded, if it may be. -/
def plainRuns (p : Pen) (indent : Nat) (mayFold : Bool) : List (RunKind × List Char) → Pen
  | [] => p
  | (kind, run) :: rest =>
    let p :=
      if kind = .spaces && run.length == 1 && width < p.column && mayFold then p.fold indent
      else p.put run
    plainRuns p indent mayFold rest

/-- Write a plain scalar. -/
def plain (p : Pen) (indent : Nat) (isRoot mayFold : Bool) (cs : List Char) : Pen :=
  let p := if isRoot then { p with isOpen := true } else p
  if cs.isEmpty then p
  else
    let p := if p.afterBlank then p else p.put [' ']
    plainRuns { p with afterBlank := false, atIndent := false } indent mayFold (runs cs)

/-- Write line breaks inside single quotes: the first line feed is doubled. -/
def quotedBreaks (p : Pen) (indent : Nat) (run : List Char) : Pen :=
  let p := if run.head? == some '\n' then p.newline '\n' else p
  (run.foldl newline p).indentTo indent

/-- Write the runs of a single-quoted text. `isFirst` says that the text begins here. -/
def singleRuns (p : Pen) (indent : Nat) (mayFold isFirst : Bool) :
    List (RunKind × List Char) → Pen
  | [] => p
  | (kind, run) :: rest =>
    let p := match kind with
      | .spaces =>
        if run.length == 1 && width < p.column && mayFold && !isFirst && !rest.isEmpty then
          p.indentTo indent
        else p.put run
      | .breaks => p.quotedBreaks indent run
      | .word => p.put (run.flatMap fun c => if c == '\x27' then ['\x27', '\x27'] else [c])
    singleRuns p indent mayFold false rest

/-- Write a scalar in single quotes. -/
def single (p : Pen) (indent : Nat) (mayFold : Bool) (cs : List Char) : Pen :=
  let p := p.indicator ['\x27'] true false false
  (p.singleRuns indent mayFold true (runs cs)).indicator ['\x27'] false false false

/-! ## Double-quoted scalars -/

/-- The character stands for itself inside double quotes. -/
def isDoublePlain (c : Char) : Bool :=
  let n := c.toNat
  c != '\x22' && c != '\\' && n != 0xfeff && n != 0x2028 && n != 0x2029 &&
    ((0x20 ≤ n && n ≤ 0x7e) || (0xa0 ≤ n && n ≤ 0xd7ff) || (0xe000 ≤ n && n ≤ 0xfffd))

/-- The letter of a short escape. -/
def escapeLetter? (c : Char) : Option Char :=
  match c.toNat with
  | 0x00 => some '0'
  | 0x07 => some 'a'
  | 0x08 => some 'b'
  | 0x09 => some 't'
  | 0x0a => some 'n'
  | 0x0b => some 'v'
  | 0x0c => some 'f'
  | 0x0d => some 'r'
  | 0x1b => some 'e'
  | 0x22 => some '\x22'
  | 0x5c => some '\\'
  | 0x85 => some 'N'
  | 0xa0 => some '_'
  | 0x2028 => some 'L'
  | 0x2029 => some 'P'
  | _ => none

/-- The escape of a character inside double quotes. -/
def escape (c : Char) : List Char :=
  let n := c.toNat
  match escapeLetter? c with
  | some letter => ['\\', letter]
  | none =>
    if n ≤ 0xff then '\\' :: 'x' :: Text.capitalHexDigits 2 n
    else if n ≤ 0xffff then '\\' :: 'u' :: Text.capitalHexDigits 4 n
    else '\\' :: 'U' :: Text.capitalHexDigits 8 n

/-- Break the line behind a backslash. A space that comes next is marked by another. -/
def foldDouble (p : Pen) (indent : Nat) (next : Option Char) : Pen :=
  let p := (p.put ['\\']).fold indent
  if next == some ' ' then p.put ['\\'] else p

/-- Write the rest of a double-quoted text. `pending` holds characters, backwards, that stand for
themselves and are not written yet. A line past the width is folded before a space, and before or
behind an escape, but neither at the first nor at the last character. -/
def doubleRest (p : Pen) (indent : Nat) (mayFold isFirst : Bool) (pending : List Char) :
    List Char → Pen
  | [] => p.put pending.reverse
  | c :: cs =>
    let inside := mayFold && !isFirst && !cs.isEmpty
    if isDoublePlain c then
      if inside && (c == ' ' || pending.isEmpty) && width < p.column + pending.length then
        doubleRest ((p.put pending.reverse).foldDouble indent (some c)) indent mayFold false [c] cs
      else doubleRest p indent mayFold false (c :: pending) cs
    else
      let p := (p.put pending.reverse).put (escape c)
      let p := if inside && width + 1 < p.column then p.foldDouble indent cs.head? else p
      doubleRest p indent mayFold false [] cs

/-- Write a scalar in double quotes. -/
def double (p : Pen) (indent : Nat) (mayFold : Bool) (cs : List Char) : Pen :=
  let p := p.indicator ['\x22'] true false false
  (p.doubleRest indent mayFold true [] cs).indicator ['\x22'] false false false

/-! ## Literal blocks -/

/-- How the end of a literal block treats line breaks. -/
def literalHints (cs : List Char) : List Char :=
  let leads := match cs.head? with
    | some c => if c == ' ' || isBreak c then ['2'] else []
    | none => []
  let ends := match cs.reverse with
    | [] => []
    | c :: rest =>
      if !isBreak c then ['-']
      else if (rest.head?.map isBreak).getD true then ['+'] else []
  leads ++ ends

/-- Write the characters of a literal block, each line at the indentation. -/
def literalRest (p : Pen) (indent : Nat) (afterBreak : Bool) : List Char → Pen
  | [] => p
  | c :: cs =>
    if isBreak c then literalRest (p.newline c) indent true cs
    else
      let p := if afterBreak then p.indentTo indent else p
      literalRest { p with reversed := c :: p.reversed, afterBlank := false, atIndent := false }
        indent false cs

/-- Write a scalar as a literal block. -/
def literal (p : Pen) (indent : Nat) (cs : List Char) : Pen :=
  let hints := literalHints cs
  let p := p.indicator ('|' :: hints) true false false
  let p := { p with isOpen := hints.getLast? == some '+' }
  (p.newline '\n').literalRest indent true cs

end Pen
end Stencil.Yaml
