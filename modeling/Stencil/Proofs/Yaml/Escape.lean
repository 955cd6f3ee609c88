import Stencil.Proofs.Number.Digits
import Stencil.Yaml.Scalar.Quoted

/-!
# Reading between double quotes

What one piece of a text between double quotes adds to what was read: a character that stands for
itself, a space, an escape by a letter, and an escape by hexadecimal digits of either case. Each
piece is read in front of any others, so the pieces of a text add up.
-/

namespace Stencil

namespace Text

/-- A digit of either case. -/
def HexCase (f : Char → Char) : Prop := ∀ d < 16, hexValue? (f (hexDigit d)) = some d

theorem hexCase_small : HexCase id := hexValue?_hexDigit

theorem hexCase_capital : HexCase Char.toUpper := by
  unfold HexCase
  decide

end Text

namespace Yaml.Quoted

open Text

variable {isDouble : Bool} {reversed rest : List Char} {gap : Gap} {c l : Char}

/-! ## Characters -/

/-- The character stands for itself between double quotes. -/
def isRaw (c : Char) : Bool := !isGap c && !isBreak c && c != '\x22' && c != '\\'

theorem isRaw_of_ascii (hlow : 0x20 < c.toNat) (hhigh : c.toNat ≤ 0x7e) (hquote : c ≠ '\x22')
    (hslash : c ≠ '\\') : isRaw c = true := by
  have hspace : c ≠ ' ' := by
    rintro rfl
    exact absurd hlow (by decide)
  have htab : c ≠ '\t' := by
    rintro rfl
    exact absurd hlow (by decide)
  simp [isRaw, isGap, hspace, htab, isBreak_of_ascii ⟨Nat.le_of_lt hlow, hhigh⟩, hquote, hslash]

theorem scanFrom_raw (hc : isRaw c = true) :
    scanFrom true reversed (.text gap) (c :: rest) =
      scanFrom true (c :: (gap.text.reverse ++ reversed)) (.text .nothing) rest := by
  obtain ⟨⟨⟨hgap, hbreak⟩, hquote⟩, hslash⟩ : ((isGap c = false ∧ isBreak c = false) ∧
      c ≠ '\x22') ∧ c ≠ '\\' := by simpa [isRaw] using hc
  have hstep : step true (.text gap) c rest = .ok (gap.text ++ [c], some (.text .nothing)) := by
    simp [step, hgap, hbreak, hquote, hslash]
  rw [scanFrom, hstep]
  simp

theorem scanFrom_gap (hc : isGap c = true) :
    scanFrom isDouble reversed (.text gap) (c :: rest) =
      scanFrom isDouble reversed (.text (gap.addBlank c)) rest := by
  have hstep : step isDouble (.text gap) c rest = .ok ([], some (.text (gap.addBlank c))) := by
    simp [step, hc]
  rw [scanFrom, hstep]
  rfl

/-- Spaces behind a line break stand for nothing. -/
theorem scanFrom_indentation {first? : Option Char} {breaks : List Char} {indent : Nat} :
    scanFrom isDouble reversed (.text (.lines first? breaks)) (List.replicate indent ' ' ++ rest) =
      scanFrom isDouble reversed (.text (.lines first? breaks)) rest := by
  induction indent with
  | zero => rfl
  | succ indent ih =>
    rw [List.replicate_succ, List.cons_append, scanFrom_gap rfl]
    exact ih

/-- The closing quote. -/
theorem scanFrom_close :
    scanFrom true reversed (.text gap) ('\x22' :: rest) =
      .ok (reversed.reverse ++ gap.text, rest) := by
  have hstep : step true (.text gap) '\x22' rest = .ok (gap.text, none) := by
    simp [step, isGap, isBreak]
  rw [scanFrom, hstep]
  simp [afterEnd]

/-! ## Escapes -/

theorem scanFrom_backslash :
    scanFrom true reversed (.text gap) ('\\' :: rest) =
      scanFrom true (gap.text.reverse ++ reversed) .escape rest := by
  have hstep : step true (.text gap) '\\' rest = .ok (gap.text, some .escape) := by
    simp [step, isGap, isBreak]
  rw [scanFrom, hstep]

theorem scanFrom_letter (hl : escaped? l = some c) :
    scanFrom true reversed (.text gap) ('\\' :: l :: rest) =
      scanFrom true (c :: (gap.text.reverse ++ reversed)) (.text .nothing) rest := by
  have hstep : step true .escape l rest = .ok ([c], some (.text .nothing)) := by
    simp [step, hl]
  rw [scanFrom_backslash, scanFrom, hstep]
  rfl

/-- A digit that is not the last of its number. -/
theorem scanFrom_digit {digits value d : Nat} (hl : hexValue? l = some d)
    (hdigits : 1 ≤ digits) :
    scanFrom true reversed (.code (digits + 1) value) (l :: rest) =
      scanFrom true reversed (.code digits (16 * value + d)) rest := by
  have hstep : step true (.code (digits + 1) value) l rest =
      .ok ([], some (.code digits (16 * value + d))) := by
    have hmore : ¬ digits + 1 ≤ 1 := by omega
    simp [step, hl, hmore]
  rw [scanFrom, hstep]
  rfl

/-- The digits of a number that is not read to its end. -/
theorem scanFrom_hexDigits {f : Char → Char} (hf : HexCase f) (width : Nat)
    {more n value : Nat} (hmore : 1 ≤ more) (hn : n < 16 ^ width) :
    scanFrom true reversed (.code (width + more) value) ((hexDigits width n).map f ++ rest) =
      scanFrom true reversed (.code more (value * 16 ^ width + n)) rest := by
  induction width generalizing more n rest with
  | zero =>
    obtain rfl : n = 0 := by simpa using hn
    simp [hexDigits]
  | succ width ih =>
    have hlow : hexValue? (f (hexDigit (n % 16))) = some (n % 16) := hf _ (Nat.mod_lt _ (by decide))
    rw [hexDigits, List.map_append, List.append_assoc, Nat.add_right_comm, Nat.add_assoc,
      ih (Nat.le_add_left 1 more) (div_lt_of_lt_pow hn), List.map_singleton, List.singleton_append,
      scanFrom_digit hlow hmore, lastDigit_behind]

/-- The number of a character stands for it. -/
theorem ofCode_toNat (c : Char) : ofCode c.toNat = .ok c := by
  have hvalid : c.toNat.isValidChar := c.valid
  have hword : ¬ wordBound ≤ c.toNat := by
    rcases hvalid with h | ⟨-, h⟩ <;> unfold wordBound <;> omega
  have hlast : ¬ 0x110000 ≤ c.toNat := by
    rcases hvalid with h | ⟨-, h⟩ <;> omega
  have hwhole : isSurrogate c.toNat = false := by
    rcases hvalid with h | ⟨h, -⟩ <;> simp [isSurrogate] <;> omega
  simp [ofCode, hword, hlast, hwhole, Char.ofNat_toNat]

/-- The escape of a character by its number. -/
theorem scanFrom_code {f : Char → Char} (hf : HexCase f) {width : Nat} (hnone : escaped? l = none)
    (hl : codeDigits? l = some (width + 1)) (hc : c.toNat < 16 ^ (width + 1)) :
    scanFrom true reversed (.text gap) ('\\' :: l :: ((hexDigits (width + 1) c.toNat).map f ++ rest)) =
      scanFrom true (c :: (gap.text.reverse ++ reversed)) (.text .nothing) rest := by
  have hmark : ∀ ds, step true .escape l ds = .ok ([], some (.code (width + 1) 0)) := by
    intro ds
    simp [step, hnone, hl]
  have hhigh : c.toNat / 16 < 16 ^ width := by
    rw [Nat.div_lt_iff_lt_mul (by decide), ← Nat.pow_succ]
    exact hc
  have hlow : hexValue? (f (hexDigit (c.toNat % 16))) = some (c.toNat % 16) :=
    hf _ (Nat.mod_lt _ (by decide))
  have hvalue : 16 * (c.toNat / 16) + c.toNat % 16 = c.toNat := Nat.div_add_mod _ _
  have hlast : ∀ rev ds, scanFrom true rev (.code 1 (c.toNat / 16))
      (f (hexDigit (c.toNat % 16)) :: ds) = scanFrom true (c :: rev) (.text .nothing) ds := by
    intro rev ds
    have hstep : step true (.code 1 (c.toNat / 16)) (f (hexDigit (c.toNat % 16))) ds =
        .ok ([c], some (.text .nothing)) := by
      simp [step, hlow, hvalue, ofCode_toNat, Except.map]
    rw [scanFrom, hstep]
    rfl
  rw [scanFrom_backslash, scanFrom, hmark]
  dsimp only
  rw [hexDigits, List.map_append, List.append_assoc, scanFrom_hexDigits hf width (Nat.le_refl 1) hhigh,
    Nat.zero_mul, Nat.zero_add, List.map_singleton, List.singleton_append, hlast]
  rfl

end Yaml.Quoted
end Stencil
