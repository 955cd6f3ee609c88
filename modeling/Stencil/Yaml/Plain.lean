import Stencil.Text.Hex
import Stencil.Yaml.Tag
import Stencil.Yaml.Timestamp

/-!
# The tags of plain scalars

A plain scalar has no tag written; its text decides. A `Rule` gives a tag to the texts of a form
that begin with one of some characters, and of several rules that apply the first wins; a text that
no rule takes is text.

There are two lists of rules. `standardRules` are those of YAML 1.1, by which documents are written.
Documents are read by `readingRules`, which differ in one rule: only the spellings of true and false
are booleans, so that words such as `on` and `no` stay text.
-/

namespace Stencil.Yaml

open Text

/-- A form of plain scalars and its tag. -/
structure Rule where
  tag : Tag
  /-- The characters with which the form may begin. -/
  firsts : List Char
  /-- The empty text is of the form, too. -/
  allowsEmpty : Bool := false
  /-- The text is of the form. -/
  accepts : List Char → Bool

namespace Rule

/-! ## Numbers -/

/-- The text without a sign in front. -/
def unsigned : List Char → List Char
  | c :: cs => if c == '-' || c == '+' then cs else c :: cs
  | [] => []

/-- A digit or an underscore. -/
def isDigitOrGap (c : Char) : Bool := c.isDigit || c == '_'

/-- A digit, then digits and underscores. -/
def isGrouped : List Char → Bool
  | c :: cs => c.isDigit && cs.all isDigitOrGap
  | [] => false

/-- The part of a number in base sixty behind a colon: one digit, or two of which the first is at
most five. -/
def isSixtieth : List Char → Bool
  | [c] => c.isDigit
  | [c, d] => '0' ≤ c && c ≤ '5' && d.isDigit
  | _ => false

/-- The parts of a text between its occurrences of a character. -/
def splitAt (c : Char) : List Char → List (List Char)
  | [] => [[]]
  | d :: cs =>
    if d == c then [] :: splitAt c cs
    else match splitAt c cs with
      | part :: parts => (d :: part) :: parts
      | [] => [[d]]

/-- A number in base sixty: a leading part of some form and at least one part behind a colon. -/
def isSexagesimal (leads : List Char → Bool) (cs : List Char) : Bool :=
  match splitAt ':' cs with
  | lead :: part :: parts => leads lead && (part :: parts).all isSixtieth
  | _ => false

/-- A grouped number that does not begin with zero. -/
def isGroupedFromOne (cs : List Char) : Bool := cs.head? != some '0' && isGrouped cs

/-- The text begins with zero and a mark, then come characters of a kind. -/
def isMarked (mark : Char) (p : Char → Bool) : List Char → Bool
  | '0' :: c :: d :: cs => c == mark && (d :: cs).all p
  | _ => false

/-- A zero, then octal digits and underscores. -/
def isOctal : List Char → Bool
  | '0' :: c :: cs => (c :: cs).all fun d => ('0' ≤ d && d ≤ '7') || d == '_'
  | _ => false

/-- An integer: binary, octal, decimal, hexadecimal or in base sixty. -/
def isInt (cs : List Char) : Bool :=
  let cs := unsigned cs
  isMarked 'b' (fun c => c == '0' || c == '1' || c == '_') cs || isOctal cs || cs == ['0'] ||
    isGroupedFromOne cs || isMarked 'x' (fun c => (hexValue? c).isSome || c == '_') cs ||
    isSexagesimal isGroupedFromOne cs

/-- An exponent: its mark, a sign and digits; it may be missing. -/
def isExponent : List Char → Bool
  | [] => true
  | e :: sign :: c :: cs =>
    (e == 'e' || e == 'E') && (sign == '-' || sign == '+') && (c :: cs).all Char.isDigit
  | _ => false

/-- Digits and underscores of a fraction, then perhaps an exponent. -/
def isFraction (cs : List Char) : Bool := isExponent (cs.dropWhile isDigitOrGap)

/-- A float: with a point, or one of the names of infinity and not-a-number. -/
def isFloat (cs : List Char) : Bool :=
  let body := unsigned cs
  let whole := body.takeWhile (· != '.')
  match body.dropWhile (· != '.') with
  | [] => false
  | _ :: fraction =>
    (isGrouped whole && isFraction fraction) ||
      (isSexagesimal isGrouped whole && fraction.all isDigitOrGap) ||
      (whole.isEmpty && ["inf", "Inf", "INF"].any (fun w => w.toList == fraction)) ||
      (whole.isEmpty && cs.head? == some '.' &&
        (["nan", "NaN", "NAN"].any (fun w => w.toList == fraction) ||
          ((fraction.head?.map Char.isDigit).getD false && isFraction fraction)))

/-! ## The rules -/

/-- A rule for some words. -/
def words (tag : Tag) (firsts : List Char) (ws : List String) : Rule :=
  { tag, firsts, accepts := fun cs => ws.any fun w => w.toList == cs }

/-- The spellings of true and false. -/
def trueFalse : List String := ["true", "True", "TRUE", "false", "False", "FALSE"]

/-- The booleans of YAML 1.1. -/
def broadBool : Rule :=
  words .bool ['y', 'Y', 'n', 'N', 't', 'T', 'f', 'F', 'o', 'O']
    (["yes", "Yes", "YES", "no", "No", "NO"] ++ trueFalse ++ ["on", "On", "ON", "off", "Off", "OFF"])

/-- Only true and false are booleans. -/
def narrowBool : Rule := words .bool ['t', 'T', 'f', 'F'] trueFalse

/-- The characters with which a number may begin, the point apart. -/
def numberFirsts : List Char := ['-', '+', '0', '1', '2', '3', '4', '5', '6', '7', '8', '9']

/-- The rules for all but booleans. -/
def otherRules : List Rule :=
  [{ tag := .float, firsts := '.' :: numberFirsts, accepts := isFloat },
   { tag := .int, firsts := numberFirsts, accepts := isInt },
   words .merge ['<'] ["<<"],
   { words .null ['~', 'n', 'N'] ["~", "null", "Null", "NULL", ""] with allowsEmpty := true },
   { tag := .timestamp, firsts := numberFirsts.drop 2, accepts := Timestamp.isTimestamp },
   words .value ['='] ["="],
   words .indicator ['!', '&', '*'] ["!", "&", "*"]]

/-- The rule takes a text. A line feed at the end does not count. -/
def applies (r : Rule) (cs : List Char) : Bool :=
  let starts := match cs with
    | [] => r.allowsEmpty
    | c :: _ => r.firsts.contains c
  starts && r.accepts (if cs.getLast? == some '\n' then cs.dropLast else cs)

end Rule

/-- The rules of YAML 1.1. -/
def standardRules : List Rule := Rule.broadBool :: Rule.otherRules

/-- The rules by which documents are read. -/
def readingRules : List Rule := Rule.otherRules ++ [Rule.narrowBool]

/-- The tag of a plain scalar by some rules. -/
def plainTag (rules : List Rule) (cs : List Char) : Tag :=
  ((rules.find? fun r => r.applies cs).map Rule.tag).getD .text

/-! ## Basic facts -/

/-- Booleans by both lists of rules. -/
example : ["yes", "off", "true", "FALSE", "tRUE"].map (fun s : String =>
      (plainTag standardRules s.toList, plainTag readingRules s.toList)) =
    [(.bool, .text), (.bool, .text), (.bool, .bool), (.bool, .bool), (.text, .text)] := by
  decide +kernel

/-- Numbers: an exponent needs a sign and a point, sixty has its own base. -/
example : ["012", "0x1F", "190:20:30", "1e3", "1.5e3", "1.5e+3", ".5", "-.5", "-.INF", "1:30.5", "08",
      "1_000", "0b"].map (fun s : String => plainTag readingRules s.toList) =
    [.int, .int, .int, .text, .text, .float, .float, .text, .float, .float, .text, .int, .text] := by
  decide +kernel

end Stencil.Yaml
