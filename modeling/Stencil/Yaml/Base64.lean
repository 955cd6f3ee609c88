/-!
# Base64

Bytes as text of sixty-four letters. Writing breaks the text into lines of 76 letters. Reading skips
every character outside of the alphabet, line breaks among them, stops at complete padding, and
fails if the letters do not come out even.
-/

namespace Stencil.Yaml.Base64

/-- The letter for a value below sixty-four. -/
def letter (n : Nat) : Char :=
  if n < 26 then Char.ofNat (0x41 + n)
  else if n < 52 then Char.ofNat (0x61 + n - 26)
  else if n < 62 then Char.ofNat (0x30 + n - 52)
  else if n = 62 then '+' else '/'

/-- The value of a letter. -/
def value? (c : Char) : Option Nat :=
  let n := c.toNat
  if 0x41 ≤ n && n ≤ 0x5a then some (n - 0x41)
  else if 0x61 ≤ n && n ≤ 0x7a then some (n - 0x61 + 26)
  else if 0x30 ≤ n && n ≤ 0x39 then some (n - 0x30 + 52)
  else if c == '+' then some 62
  else if c == '/' then some 63
  else none

/-- The letters of some bytes with padding, on one line. -/
def letters : List UInt8 → List Char
  | [] => []
  | [a] => [letter (a.toNat / 4), letter (a.toNat % 4 * 16), '=', '=']
  | [a, b] =>
    [letter (a.toNat / 4), letter (a.toNat % 4 * 16 + b.toNat / 16), letter (b.toNat % 16 * 4), '=']
  | a :: b :: c :: rest =>
    letter (a.toNat / 4) :: letter (a.toNat % 4 * 16 + b.toNat / 16) ::
      letter (b.toNat % 16 * 4 + c.toNat / 64) :: letter (c.toNat % 64) :: letters rest

/-- Break a text into lines of a width, each with a line feed; `fuel` is at least its length. -/
def breakLines (width : Nat) : (fuel : Nat) → List Char → List Char
  | 0, _ => []
  | _, [] => []
  | fuel + 1, cs => cs.take width ++ '\n' :: breakLines width fuel (cs.drop width)

/-- The text of some bytes. -/
def encode (data : List UInt8) : List Char :=
  let cs := letters data
  breakLines 76 cs.length cs

/-- Read on. `place` is the place in the group of four, `left` what is left of the letter before,
and `pads` counts the padding since the last letter. -/
def decodeFrom? (place left pads : Nat) : List Char → Option (List UInt8)
  | [] => if place = 0 then some [] else none
  | c :: cs =>
    if c == '=' then
      if 2 ≤ place then
        if 4 ≤ place + pads + 1 then some [] else decodeFrom? place left (pads + 1) cs
      else decodeFrom? place left pads cs
    else match value? c with
      | none => decodeFrom? place left pads cs
      | some v =>
        match place with
        | 0 => decodeFrom? 1 v 0 cs
        | 1 => (decodeFrom? 2 (v % 16) 0 cs).map (UInt8.ofNat (left * 4 + v / 16) :: ·)
        | 2 => (decodeFrom? 3 (v % 4) 0 cs).map (UInt8.ofNat (left * 16 + v / 4) :: ·)
        | _ => (decodeFrom? 0 0 0 cs).map (UInt8.ofNat (left * 64 + v) :: ·)

/-- The bytes that a text stands for. -/
def decode? (cs : List Char) : Option (List UInt8) := decodeFrom? 0 0 0 cs

/-! ## Basic facts -/

theorem value?_letter : ∀ n < 64, value? (letter n) = some n := by decide

/-- Every count of bytes in the last group. -/
example : [[0x61], [0x61, 0x62], [0x61, 0x62, 0x63]].map encode =
      ["YQ==\n", "YWI=\n", "YWJj\n"].map String.toList ∧
    ["YQ==", "Y Q=\n=", "YQ", "Y", "=YWJj"].map (fun s : String => decode? s.toList) =
      [some [0x61], some [0x61], none, none, some [0x61, 0x62, 0x63]] := by decide +kernel

end Stencil.Yaml.Base64
