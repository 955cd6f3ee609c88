import Stencil.Text.Hex
import Stencil.Text.Printable

/-!
# Quoted texts and bytes

The quoted form in which messages show a text or a string of bytes. The quote mark is the single
quote, unless the content has a single quote and no double quote. Inside, the mark itself and the
backslash are escaped, tab and line ends have short escapes, and what is not printable is written
by its code.
-/

namespace Stencil.Text

/-- The mark that quotes a content: the double quote if it holds single quotes only. -/
def quoteMark (hasSingle hasDouble : Bool) : Char :=
  if hasSingle && !hasDouble then '\x22' else '\x27'

/-- The escapes that both forms share: the mark, the backslash, tab and the line ends. -/
def shortEscape? (mark c : Char) : Option (List Char) :=
  if c == mark || c == '\\' then some ['\\', c]
  else match c with
    | '\t' => some ['\\', 't']
    | '\n' => some ['\\', 'n']
    | '\r' => some ['\\', 'r']
    | _ => none

/-- The escape of a character by its code point. -/
def codeEscape (c : Char) : List Char :=
  if c.toNat < 0x100 then '\\' :: 'x' :: hexDigits 2 c.toNat
  else if c.toNat < 0x10000 then '\\' :: 'u' :: hexDigits 4 c.toNat
  else '\\' :: 'U' :: hexDigits 8 c.toNat

/-- One character inside a quoted text. -/
def quotedChar (mark c : Char) : List Char :=
  match shortEscape? mark c with
  | some escape => escape
  | none => if isPrintable c then [c] else codeEscape c

/-- The quoted form of a text. -/
def quoted (cs : List Char) : List Char :=
  let mark := quoteMark (cs.contains '\x27') (cs.contains '\x22')
  mark :: cs.flatMap (quotedChar mark) ++ [mark]

/-- One byte inside a quoted string of bytes. -/
def quotedByte (mark : Char) (b : UInt8) : List Char :=
  let c := Char.ofNat b.toNat
  match shortEscape? mark c with
  | some escape => escape
  | none => if 0x20 ≤ b.toNat && b.toNat < 0x7f then [c] else codeEscape c

/-- The quoted form of a string of bytes. -/
def quotedBytes (bs : List UInt8) : List Char :=
  let mark := quoteMark (bs.contains 0x27) (bs.contains 0x22)
  'b' :: mark :: bs.flatMap (quotedByte mark) ++ [mark]

/-- The choice of the mark. -/
example : (quoted "it's".toList, quoted "say \"x\"".toList) =
    ("\"it's\"".toList, "'say \"x\"'".toList) := by decide +kernel

end Stencil.Text
