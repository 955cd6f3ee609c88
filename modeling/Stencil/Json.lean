import Stencil.Value.Part
import Stencil.Value.Quoted

/-!
# JSON text

Writing values as JSON, on one line or indented. Tuples are written as arrays. Numbers, booleans
and null may be keys and become their text; a decimal, a day, a moment, bytes or a set is written as
a string that holds its plain form, and as a key it is refused. Strings are plain ASCII: every
other character is escaped by its UTF-16 units. A list, tuple or document inside itself is refused.
-/

namespace Stencil.Json

open Text

/-- Why a value has no JSON text. -/
inductive Error where
  /-- A key is neither text nor number nor boolean nor null. -/
  | badKey (typeName : String)
  /-- An integer is past the limit of decimal text. -/
  | oversizedInteger
  /-- An object is a part of itself. -/
  | circular
  /-- The collections lie too deep inside each other for the writer. -/
  | tooDeep
deriving DecidableEq

/-- The words for an error. -/
def Error.message : Error → String
  | .badKey typeName => "keys must be str, int, float, bool or None, not " ++ typeName
  | .oversizedInteger => "integer exceeds the limit for decimal text"
  | .circular => "Circular reference detected"
  | .tooDeep => "maximum recursion depth exceeded"

/-! ## Strings -/

/-- The escape of a UTF-16 unit. -/
def unitEscape (n : Nat) : List Char := '\\' :: 'u' :: hexDigits 4 n

/-- One character inside a string. -/
def escaped (c : Char) : List Char :=
  match c with
  | '\x22' => ['\\', '\x22']
  | '\\' => ['\\', '\\']
  | '\n' => ['\\', 'n']
  | '\r' => ['\\', 'r']
  | '\t' => ['\\', 't']
  | '\x0c' => ['\\', 'f']
  | '\x08' => ['\\', 'b']
  | c =>
    let n := c.toNat
    if 0x20 ≤ n && n ≤ 0x7e then [c]
    else if n < 0x10000 then unitEscape n
    else unitEscape (0xd800 + (n - 0x10000) / 0x400) ++ unitEscape (0xdc00 + (n - 0x10000) % 0x400)

/-- A text as a JSON string. -/
def string (cs : List Char) : List Char := '\x22' :: cs.flatMap escaped ++ ['\x22']

/-! ## Scalars and keys -/

/-- A boolean. -/
def boolean (b : Bool) : List Char := (if b then "true" else "false").toList

/-- A double; the special ones have names of their own. -/
def float : Double → List Char
  | .infinity negative => Decimal.signText negative ++ "Infinity".toList
  | .nan => "NaN".toList
  | x => x.text

/-- The decimal text of an integer. -/
def integer (n : Int) : Except Error (List Char) :=
  match Integer.text? n with
  | some cs => .ok cs
  | none => .error .oversizedInteger

/-- The text of a key. -/
def keyText : Value → Except Error (List Char)
  | .text s => .ok s.toList
  | .float x => .ok (float x)
  | .bool b => .ok (boolean b)
  | .null => .ok "null".toList
  | .int n => integer n
  | .decimal _ => .error (.badKey "decimal.Decimal")
  | .date _ => .error (.badKey "datetime.date")
  | .moment _ => .error (.badKey "datetime.datetime")
  | v => .error (.badKey v.typeName)

/-- A value outside of JSON as a string of its plain form. -/
def foreign (v : Value) : Except Error (List Char) :=
  match v.plain? with
  | some cs => .ok (string cs)
  | none => .error .oversizedInteger

/-! ## Layout -/

/-- Where line breaks stand: nowhere, or around every item with so many blanks for each level. -/
inductive Layout where
  | compact
  | indented (width : Nat)

/-- The line break before an item at a depth. -/
def Layout.breakAt : Layout → (depth : Nat) → List Char
  | compact, _ => []
  | indented width, depth => '\n' :: List.replicate (width * depth) ' '

/-- What stands between two items at a depth. -/
def Layout.separator (l : Layout) (depth : Nat) : List Char :=
  match l with
  | compact => [',', ' ']
  | indented _ => ',' :: l.breakAt depth

/-- Items at a depth between brackets; without items the brackets touch. -/
def Layout.enclose (l : Layout) (depth : Nat) (opening closing : Char) :
    List (List Char) → List Char
  | [] => [opening, closing]
  | parts =>
    opening :: l.breakAt (depth + 1) ++ Value.joinWith (l.separator (depth + 1)) parts ++
      l.breakAt depth ++ [closing]

/-! ## Values -/

/-- The parts that are objects around themselves. -/
def closed (names : Position → Option Nat) : Position → Bool := fun p =>
  (names p).isSome && (List.range p.length).any fun n => names (p.take n) == names p

/-- What is written of a collection, unless it is a part of itself. An empty one has no parts. -/
def opened (isClosed isEmpty : Bool) (parts : Except Error (List (List Char))) :
    Except Error (List (List Char)) :=
  if isClosed && !isEmpty then .error .circular else parts

mutual

/-- The JSON text of a value at a depth. `circles` says which of its parts are parts of
themselves. -/
def write (l : Layout) (depth : Nat) (circles : Position → Bool) :
    Value → Except Error (List Char)
  | .null => .ok "null".toList
  | .bool b => .ok (boolean b)
  | .int n => integer n
  | .float x => .ok (float x)
  | .text s => .ok (string s.toList)
  | .list items => do
    let parts ← opened (circles []) items.isEmpty (writeItems l (depth + 1) circles items)
    return l.enclose depth '[' ']' parts
  | .tuple items => do
    let parts ← opened (circles []) items.isEmpty (writeItems l (depth + 1) circles items)
    return l.enclose depth '[' ']' parts
  | .document entries => do
    let parts ← opened (circles []) entries.isEmpty (writeEntries l (depth + 1) circles entries)
    return l.enclose depth '\x7b' '\x7d' parts
  | .decimal d => foreign (.decimal d)
  | .set items => foreign (.set items)
  | .bytes data => foreign (.bytes data)
  | .date d => foreign (.date d)
  | .moment t => foreign (.moment t)

/-- The JSON texts of some values. -/
def writeItems (l : Layout) (depth : Nat) (circles : Position → Bool) :
    List Value → Except Error (List (List Char))
  | [] => .ok []
  | v :: vs => do
    let cs ← write l depth (Position.first circles) v
    let rest ← writeItems l depth (Position.rest circles) vs
    return cs :: rest

/-- The JSON texts of the entries of a document, each key before its value. -/
def writeEntries (l : Layout) (depth : Nat) (circles : Position → Bool) :
    List (Value × Value) → Except Error (List (List Char))
  | [] => .ok []
  | (k, v) :: es => do
    let key ← keyText k
    let cs ← write l depth (Position.first (Position.rest circles)) v
    let rest ← writeEntries l depth (Position.rest (Position.rest circles)) es
    return (string key ++ ':' :: ' ' :: cs) :: rest

end

/-- JSON text on one line of a value whose parts are all apart. -/
def compact (v : Value) : Except Error (List Char) := write .compact 0 (fun _ => false) v

/-- JSON text with every item on a line of its own, indented by two blanks for each level. The parts
of the value have names as far as they are objects that are told apart. -/
def indented (names : Position → Option Nat) (v : Value) : Except Error (List Char) :=
  write (.indented 2) 0 (closed names) v

/-! ## Basic facts -/

@[simp] theorem compact_text (s : String) : compact (.text s) = .ok (string s.toList) := by
  simp [compact, write]

/-- A document on one line and indented. -/
example :
    let v : Value := .document [(.int 1, .list [.bool true, .text "é"]), (.null, .list [])]
    (compact v).toOption = some "\x7b\"1\": [true, \"\\u00e9\"], \"null\": []\x7d".toList ∧
      (indented (fun _ => none) v).toOption =
        some "\x7b\n  \"1\": [\n    true,\n    \"\\u00e9\"\n  ],\n  \"null\": []\n\x7d".toList := by
  decide +kernel

/-- A list that is its own item. -/
example : indented (fun _ => some 0) (.list [.list [.null]]) = .error .circular := rfl

end Stencil.Json
