/-!
# UTF-8

Reading text from bytes and writing it. `decode?` takes exactly the well-formed sequences: the
shortest form of every code point up to U+10FFFF that is no surrogate. `encode` writes the form
that `decode?` reads.
-/

namespace Stencil.Text.Utf8

/-- A continuation byte carries six bits. -/
def continuation? (b : UInt8) : Option Nat :=
  if 0x80 ≤ b.toNat && b.toNat < 0xc0 then some (b.toNat - 0x80) else none

/-- The character of a code point that needs at least the given number, if it is one. -/
def charFrom? (least n : Nat) : Option Char :=
  if least ≤ n && n.isValidChar then some (Char.ofNat n) else none

/-- The text that a sequence of bytes stands for, if it is well formed. -/
def decode? : List UInt8 → Option (List Char)
  | [] => some []
  | a :: bs =>
    if a.toNat < 0x80 then
      (decode? bs).map (Char.ofNat a.toNat :: ·)
    else if a.toNat < 0xc0 then none
    else if a.toNat < 0xe0 then
      match bs with
      | b :: bs => do
        let b ← continuation? b
        let c ← charFrom? 0x80 ((a.toNat - 0xc0) * 0x40 + b)
        let cs ← decode? bs
        return c :: cs
      | _ => none
    else if a.toNat < 0xf0 then
      match bs with
      | b :: c :: bs => do
        let b ← continuation? b
        let c ← continuation? c
        let c ← charFrom? 0x800 ((a.toNat - 0xe0) * 0x1000 + b * 0x40 + c)
        let cs ← decode? bs
        return c :: cs
      | _ => none
    else
      match bs with
      | b :: c :: d :: bs => do
        let b ← continuation? b
        let c ← continuation? c
        let d ← continuation? d
        let c ← charFrom? 0x10000 ((a.toNat - 0xf0) * 0x40000 + b * 0x1000 + c * 0x40 + d)
        let cs ← decode? bs
        return c :: cs
      | _ => none

/-- The bytes of a text. -/
def encode (cs : List Char) : List UInt8 := cs.flatMap String.utf8EncodeChar

/-! ## Basic facts -/

@[simp] theorem encode_nil : encode [] = [] := rfl

/-- Each length of a sequence, and an overlong form, a surrogate and a number that is too large. -/
example : decode? [0x61, 0xc3, 0xa9, 0xe2, 0x82, 0xac, 0xf0, 0x9f, 0x98, 0x80] =
      some "aé€😀".toList ∧
    [[0xc0, 0xaf], [0xed, 0xa0, 0x80], [0xf4, 0x90, 0x80, 0x80], [0xe9]].map decode? =
      [none, none, none, none] := by decide +kernel

end Stencil.Text.Utf8
