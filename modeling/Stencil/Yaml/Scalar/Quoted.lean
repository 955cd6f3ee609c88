import Stencil.Text.Hex
import Stencil.Yaml.Fault
import Stencil.Yaml.Scalar.Gap

/-!
# Quoted scalars

The text between two quotes, which may run over several lines. Inside single quotes a doubled quote
stands for one. Inside double quotes a backslash begins an escape: of a character by a letter, by
its number in hexadecimal digits, or of a line break. No line of a quoted scalar may look like the
start or the end of a document.

**Surrogates.** An escape may give the number of a UTF-16 unit that is half of a pair. Two such
escapes are not put together: each is a text of its own, which no file can hold. There is no
character for it here, so the replacement character stands for each of them.
-/

namespace Stencil.Yaml.Quoted

open Text

/-- What the reading of a quoted scalar waits for. -/
inductive Mode where
  /-- For a word, behind a gap. -/
  | text (gap : Gap)
  /-- For a second quote behind a single one. -/
  | quote
  /-- For the character that is escaped. -/
  | escape
  /-- For more digits of a number. -/
  | code (digits value : Nat)

/-- The character that an escape letter stands for. -/
def escaped? (c : Char) : Option Char :=
  match c with
  | '0' => some '\x00'
  | 'a' => some '\x07'
  | 'b' => some '\x08'
  | 't' => some '\t'
  | '\t' => some '\t'
  | 'n' => some '\n'
  | 'v' => some '\x0b'
  | 'f' => some '\x0c'
  | 'r' => some '\r'
  | 'e' => some '\x1b'
  | ' ' => some ' '
  | '\x22' => some '\x22'
  | '\\' => some '\\'
  | '/' => some '/'
  | 'N' => some '\x85'
  | '_' => some '\xa0'
  | 'L' => some '\u2028'
  | 'P' => some '\u2029'
  | _ => none

/-- The count of hexadecimal digits behind a letter. -/
def codeDigits? (c : Char) : Option Nat :=
  match c with
  | 'x' => some 2
  | 'u' => some 4
  | 'U' => some 8
  | _ => none

/-- The first number that is no signed word of 32 bits. -/
def wordBound : Nat := 0x80000000

/-- The number is a UTF-16 unit that is half of a pair. -/
def isSurrogate (n : Nat) : Bool := 0xd800 ≤ n && n < 0xe000

/-- The character that an escaped number stands for. -/
def ofCode (n : Nat) : Except Fault Char :=
  if wordBound ≤ n then .error .hugeEscape
  else if 0x110000 ≤ n then .error .noCharacter
  else .ok (if isSurrogate n then '\ufffd' else Char.ofNat n)

/-- One character of a quoted scalar: the text that it settles and what is waited for next, if the
scalar goes on. `rest` is the text behind it. -/
def step (isDouble : Bool) (mode : Mode) (c : Char) (rest : List Char) :
    Except Fault (List Char × Option Mode) :=
  match mode with
  | .text gap =>
    if isGap c then .ok ([], some (.text (gap.addBlank c)))
    else if isBreak c then
      if beginsWithMarker rest then .error .malformed else .ok ([], some (.text (gap.addBreak c)))
    else if isDouble && c == '\x22' then .ok (gap.text, none)
    else if isDouble && c == '\\' then .ok (gap.text, some .escape)
    else if !isDouble && c == '\x27' then .ok (gap.text, some .quote)
    else .ok (gap.text ++ [c], some (.text .nothing))
  | .quote => if c == '\x27' then .ok (['\x27'], some (.text .nothing)) else .ok ([], none)
  | .escape =>
    match escaped? c, codeDigits? c with
    | some d, _ => .ok ([d], some (.text .nothing))
    | none, some digits => .ok ([], some (.code digits 0))
    | none, none =>
      if isBreak c && !beginsWithMarker rest then .ok ([], some (.text (.lines none [])))
      else .error .malformed
  | .code digits value =>
    match hexValue? c with
    | none => .error .malformed
    | some d =>
      if digits ≤ 1 then (ofCode (16 * value + d)).map fun c => ([c], some (.text .nothing))
      else .ok ([], some (.code (digits - 1) (16 * value + d)))

/-- The character that ends a scalar belongs to it, except one behind a closing single quote. -/
def afterEnd (mode : Mode) (c : Char) (rest : List Char) : List Char :=
  match mode with
  | .quote => c :: rest
  | _ => rest

/-- Read the rest of a quoted scalar: its text and what comes behind the closing quote. `reversed`
is the text so far, backwards. -/
def scanFrom (isDouble : Bool) (reversed : List Char) (mode : Mode) :
    List Char → Except Fault (List Char × List Char)
  | [] =>
    match mode with
    | .quote => .ok (reversed.reverse, [])
    | _ => .error .malformed
  | c :: rest =>
    match step isDouble mode c rest with
    | .error e => .error e
    | .ok (cs, some next) => scanFrom isDouble (cs.reverse ++ reversed) next rest
    | .ok (cs, none) => .ok ((cs.reverse ++ reversed).reverse, afterEnd mode c rest)

/-- Read a quoted scalar behind its opening quote. -/
def scan (isDouble : Bool) (cs : List Char) : Except Fault (List Char × List Char) :=
  scanFrom isDouble [] (.text .nothing) cs

/-! ## Basic facts -/

/-- Escapes, a folded and an escaped line break, and a doubled single quote. -/
example : (scan true "a\\x41\\U0001f600\\ud83d\\ude00 \n b\\\n  c\" d".toList).toOption =
      some ("aA😀\ufffd\ufffd bc".toList, " d".toList) ∧
    (scan false "it''s \n\n x' y".toList).toOption = some ("it's\nx".toList, " y".toList) ∧
    [scan true "\\U00110000\"".toList, scan true "a".toList, scan true "a\n--- \"".toList].map
      (fun x => match x with | .error e => some e | .ok _ => none) =
      [some .noCharacter, some .malformed, some .malformed] := by decide +kernel

end Stencil.Yaml.Quoted
