import Stencil.Number.Integer
import Stencil.Text.Hex
import Stencil.Text.Utf8
import Stencil.Yaml.Character
import Stencil.Yaml.Fault
import Stencil.Yaml.Scalar.Block
import Stencil.Yaml.Token.Basic

/-!
# Names, tags and directives

The tokens that begin with an ampersand, an asterisk, an exclamation mark or, at the begin of a
line, a percent sign. Each function reads behind the mark and gives what was read and the rest; it
gives nothing if the text is not well formed. Only the numbers in a directive have a fault of their
own, for they must not have too many digits.
-/

namespace Stencil.Yaml.Name

open Text

/-- A character of a name. -/
def isNameChar (c : Char) : Bool := c.isAlphanum || c == '-' || c == '_'

/-- The name at the start of a text, and the rest. -/
def name? (cs : List Char) : Option (List Char × List Char) :=
  let name := cs.takeWhile isNameChar
  if name.isEmpty then none else some (name, cs.dropWhile isNameChar)

/-- A character that may stand behind the name of an anchor. -/
def endsAnchor (cs : List Char) : Bool :=
  endsHere cs ||
    (cs.head?.map ['?', ':', ',', ']', '\x7d', '%', '@', '\x60'].contains).getD true

/-- The name of an anchor or an alias. -/
def anchor? (cs : List Char) : Option (List Char × List Char) := do
  let (name, rest) ← name? cs
  if endsAnchor rest then some (name, rest) else none

/-! ## Tags -/

/-- A character of a tag that stands for itself. -/
def isTagChar (c : Char) : Bool :=
  c.isAlphanum || "-;/?:@&=+$,_.!~*'()[]".toList.contains c

/-- Read on in the text of a tag, in which bytes may be written as escapes. `reversed` is the text
so far and `bytes` the escaped bytes behind it, both backwards. -/
def tagFrom? (reversed : List Char) (bytes : List UInt8) :
    List Char → Option (List Char × List Char)
  | '%' :: a :: b :: cs => do
    let high ← hexValue? a
    let low ← hexValue? b
    tagFrom? reversed (UInt8.ofNat (16 * high + low) :: bytes) cs
  | c :: cs => do
    let escaped ← Utf8.decode? bytes.reverse
    let reversed := escaped.reverse ++ reversed
    if c == '%' then none
    else if isTagChar c then tagFrom? (c :: reversed) [] cs
    else some (reversed.reverse, c :: cs)
  | [] => do
    let escaped ← Utf8.decode? bytes.reverse
    some (reversed.reverse ++ escaped, [])

/-- The text of a tag; it must not be empty. -/
def tagText? (cs : List Char) : Option (List Char × List Char) := do
  let (text, rest) ← tagFrom? [] [] cs
  if rest.length < cs.length then some (text, rest) else none

/-- A handle: an exclamation mark, or a name between two of them. -/
def handle? : List Char → Option (List Char × List Char)
  | '!' :: ' ' :: cs => some (['!'], ' ' :: cs)
  | '!' :: cs =>
    match cs.dropWhile isNameChar with
    | '!' :: rest => some ('!' :: cs.takeWhile isNameChar ++ ['!'], rest)
    | _ => none
  | _ => none

/-- A second exclamation mark stands in the word at the start of a text. -/
def hasHandle (cs : List Char) : Bool :=
  (cs.dropWhile fun c => c != '!' && c != ' ' && !isBreak c).head? == some '!'

/-- A tag behind its exclamation mark. -/
def tagParts? (cs : List Char) : Option (TagText × List Char) :=
  match cs with
  | '<' :: cs => do
    let (text, rest) ← tagText? cs
    match rest with
    | '>' :: rest => some (⟨none, String.ofList text⟩, rest)
    | _ => none
  | cs =>
    if endsHere cs then some (⟨none, "!"⟩, cs)
    else do
      let (handle, cs) ← if hasHandle cs then handle? ('!' :: cs) else some (['!'], cs)
      let (text, rest) ← tagText? cs
      some (⟨some (String.ofList handle), String.ofList text⟩, rest)

/-- A tag behind its exclamation mark, which a space or a line break must follow. -/
def tag? (cs : List Char) : Option (TagText × List Char) := do
  let (t, rest) ← tagParts? cs
  if endsWord rest then some (t, rest) else none

/-! ## Directives -/

/-- A number of digits at the start of a text. -/
def number (cs : List Char) : Except Fault (Nat × List Char) :=
  let ds := cs.takeWhile Char.isDigit
  if ds.isEmpty then .error .malformed
  else if Integer.digitLimit < ds.length then .error .notNumber
  else .ok (ds.foldl (fun n c => 10 * n + (c.toNat - 0x30)) 0, cs.dropWhile Char.isDigit)

/-- The rest of a text behind spaces. -/
def skipSpaces (cs : List Char) : List Char := cs.dropWhile (· == ' ')

/-- The version in a directive. -/
def version (cs : List Char) : Except Fault (Directive × List Char) := do
  let (major, cs) ← number (skipSpaces cs)
  match cs with
  | '.' :: cs =>
    let (_, rest) ← number cs
    if endsWord rest then return (.version major, rest) else throw .malformed
  | _ => throw .malformed

/-- The handle and its meaning in a directive. -/
def handleMeaning? (cs : List Char) : Option (Directive × List Char) := do
  let (handle, cs) ← handle? (skipSpaces cs)
  if cs.head? != some ' ' then none
  else
    let (meaning, rest) ← tagText? (skipSpaces cs)
    if endsWord rest then some (.handle (String.ofList handle) (String.ofList meaning), rest)
    else none

/-- The content of a directive with a name. -/
def content (name : String) (cs : List Char) : Except Fault (Directive × List Char) :=
  if name == "YAML" then version cs
  else if name == "TAG" then required (handleMeaning? cs)
  else .ok (.other, cs.dropWhile (!isBreak ·))

/-- A directive behind its percent sign, up to the end of its line. -/
def directive (cs : List Char) : Except Fault (Directive × List Char) := do
  let (name, cs) ← required (name? cs)
  if !endsWord cs then throw .malformed
  else
    let (d, cs) ← content (String.ofList name) cs
    let rest ← required (Block.restOfLine? cs)
    return (d, rest)

/-! ## Basic facts -/

/-- A common tag, one of its own, one that leaves the choice, and a verbatim one. -/
example : ["!int 1", "own 1", " 1", "<tag:a%c3%a9> 1", "a!b!c "].map
      (fun s : String => (tag? s.toList).map Prod.fst) =
    [some ⟨some "!!", "int"⟩, some ⟨some "!", "own"⟩, some ⟨none, "!"⟩, some ⟨none, "tag:aé"⟩,
      some ⟨some "!a!", "b!c"⟩] := by decide +kernel

/-- Directives. -/
example : ["YAML 1.2 # note\n", "TAG !e! tag:e,\n", "a%", "foo bar\n"].map
      (fun s : String => ((directive s.toList).map Prod.fst).toOption) =
    [some (.version 1), some (.handle "!e!" "tag:e,"), none, some .other] := by decide +kernel

end Stencil.Yaml.Name
