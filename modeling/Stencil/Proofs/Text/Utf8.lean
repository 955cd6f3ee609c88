import Stencil.Text.Utf8

/-!
# Encoded text is decoded

The bytes of a character are one of the forms that decoding takes, with the bits that encoding puts
there, so the bytes of a text are decoded as the text (`decode?_encode`).
-/

namespace Stencil.Text.Utf8

variable {c : Char} {n : Nat}

theorem toNat_ofNat (h : n < 256) : (UInt8.ofNat n).toNat = n := by
  rw [UInt8.toNat_ofNat', Nat.mod_eq_of_lt h]

/-- A continuation byte carries the lowest six bits. -/
theorem continuation?_ofNat (n : Nat) : continuation? (UInt8.ofNat (n % 64 + 128)) = some (n % 64) := by
  have hn : (UInt8.ofNat (n % 64 + 128)).toNat = n % 64 + 128 := toNat_ofNat (by omega)
  have hrange : (decide (128 ≤ n % 64 + 128) && decide (n % 64 + 128 < 192)) = true := by
    rw [Bool.and_eq_true, decide_eq_true_eq, decide_eq_true_eq]
    omega
  unfold continuation?
  rw [hn, if_pos hrange, Nat.add_sub_cancel]

theorem charFrom?_toNat {least : Nat} (h : least ≤ c.toNat) (heq : n = c.toNat) :
    charFrom? least n = some c := by
  have hvalid : c.toNat.isValidChar := c.valid
  rw [heq, charFrom?, if_pos (by simp [h, hvalid]), Char.ofNat_toNat]

/-! ## The four forms -/

section Forms

variable {a b b' b'' : UInt8} {x y z : Nat} {bs : List UInt8}

theorem decode?_one (ha : a.toNat < 0x80) :
    decode? (a :: bs) = (decode? bs).map (Char.ofNat a.toNat :: ·) := by
  rw [decode?.eq_def]
  dsimp only
  rw [if_pos ha]

theorem decode?_two (hlow : 0xc0 ≤ a.toNat) (hhigh : a.toNat < 0xe0) (hb : continuation? b = some x)
    (hc : charFrom? 0x80 ((a.toNat - 0xc0) * 0x40 + x) = some c) :
    decode? (a :: b :: bs) = (decode? bs).map (c :: ·) := by
  rw [decode?.eq_def]
  dsimp only
  rw [if_neg (by omega), if_neg (by omega), if_pos hhigh]
  show ((continuation? b).bind fun x => (charFrom? 0x80 ((a.toNat - 0xc0) * 0x40 + x)).bind fun c =>
    (decode? bs).bind fun cs => some (c :: cs)) = _
  rw [hb, Option.bind_some, hc, Option.bind_some]
  cases decode? bs <;> rfl

theorem decode?_three (hlow : 0xe0 ≤ a.toNat) (hhigh : a.toNat < 0xf0)
    (hb : continuation? b = some x) (hb' : continuation? b' = some y)
    (hc : charFrom? 0x800 ((a.toNat - 0xe0) * 0x1000 + x * 0x40 + y) = some c) :
    decode? (a :: b :: b' :: bs) = (decode? bs).map (c :: ·) := by
  rw [decode?.eq_def]
  dsimp only
  rw [if_neg (by omega), if_neg (by omega), if_neg (by omega), if_pos hhigh]
  show ((continuation? b).bind fun x => (continuation? b').bind fun y =>
    (charFrom? 0x800 ((a.toNat - 0xe0) * 0x1000 + x * 0x40 + y)).bind fun c =>
      (decode? bs).bind fun cs => some (c :: cs)) = _
  rw [hb, Option.bind_some, hb', Option.bind_some, hc, Option.bind_some]
  cases decode? bs <;> rfl

theorem decode?_four (hlow : 0xf0 ≤ a.toNat) (hb : continuation? b = some x)
    (hb' : continuation? b' = some y) (hb'' : continuation? b'' = some z)
    (hc : charFrom? 0x10000 ((a.toNat - 0xf0) * 0x40000 + x * 0x1000 + y * 0x40 + z) = some c) :
    decode? (a :: b :: b' :: b'' :: bs) = (decode? bs).map (c :: ·) := by
  rw [decode?.eq_def]
  dsimp only
  rw [if_neg (by omega), if_neg (by omega), if_neg (by omega), if_neg (by omega)]
  show ((continuation? b).bind fun x => (continuation? b').bind fun y =>
    (continuation? b'').bind fun z =>
      (charFrom? 0x10000 ((a.toNat - 0xf0) * 0x40000 + x * 0x1000 + y * 0x40 + z)).bind fun c =>
        (decode? bs).bind fun cs => some (c :: cs)) = _
  rw [hb, Option.bind_some, hb', Option.bind_some, hb'', Option.bind_some, hc, Option.bind_some]
  cases decode? bs <;> rfl

end Forms

/-- The bytes of a character are decoded as the character. -/
theorem decode?_encodeChar (c : Char) (bs : List UInt8) :
    decode? (String.utf8EncodeChar c ++ bs) = (decode? bs).map (c :: ·) := by
  have hvalid : c.toNat.isValidChar := c.valid
  have hlast : c.toNat < 0x110000 := by
    rcases hvalid with h | h <;> omega
  have hval : c.val.toNat = c.toNat := rfl
  unfold String.utf8EncodeChar
  dsimp only
  rw [hval]
  by_cases hone : c.toNat ≤ 127
  · have ha : (UInt8.ofNat c.toNat).toNat = c.toNat := toNat_ofNat (by omega)
    rw [if_pos hone, List.singleton_append, decode?_one (by rw [ha]; omega), ha, Char.ofNat_toNat]
  rw [if_neg hone]
  by_cases htwo : c.toNat ≤ 2047
  · have ha : (UInt8.ofNat (c.toNat / 64 % 32 + 192)).toNat = c.toNat / 64 % 32 + 192 :=
      toNat_ofNat (by omega)
    rw [if_pos htwo]
    exact decode?_two (by rw [ha]; omega) (by rw [ha]; omega) (continuation?_ofNat _)
      (charFrom?_toNat (by omega) (by rw [ha]; omega))
  rw [if_neg htwo]
  by_cases hthree : c.toNat ≤ 65535
  · have ha : (UInt8.ofNat (c.toNat / 4096 % 16 + 224)).toNat = c.toNat / 4096 % 16 + 224 :=
      toNat_ofNat (by omega)
    rw [if_pos hthree]
    exact decode?_three (by rw [ha]; omega) (by rw [ha]; omega) (continuation?_ofNat _)
      (continuation?_ofNat _) (charFrom?_toNat (by omega) (by rw [ha]; omega))
  · have ha : (UInt8.ofNat (c.toNat / 262144 % 8 + 240)).toNat = c.toNat / 262144 % 8 + 240 :=
      toNat_ofNat (by omega)
    rw [if_neg hthree]
    exact decode?_four (by rw [ha]; omega) (continuation?_ofNat _) (continuation?_ofNat _)
      (continuation?_ofNat _) (charFrom?_toNat (by omega) (by rw [ha]; omega))

/-- **Encoded text is decoded.** -/
theorem decode?_encode (cs : List Char) : decode? (encode cs) = some cs := by
  induction cs with
  | nil => rfl
  | cons c cs ih =>
    show decode? (String.utf8EncodeChar c ++ encode cs) = _
    rw [decode?_encodeChar, ih]
    rfl

end Stencil.Text.Utf8
