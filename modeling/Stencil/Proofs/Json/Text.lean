import Stencil.Json
import Stencil.Proofs.Yaml.Escape

/-!
# JSON strings between double quotes

A JSON string is read back by the rules for double quotes if no character of it is past the first
plane (`scan_string`). A character past it is written as two escapes of UTF-16 units, which the rules
do not promise to put together.
-/

namespace Stencil.Json

open Text Yaml Yaml.Quoted

variable {c : Char} {cs rest reversed : List Char} {gap : Gap}

/-- No character is past the first plane. -/
def isBasic (cs : List Char) : Bool := cs.all (·.toNat < 0x10000)

/-- A character in a string is a space, stands for itself or is an escape. -/
theorem escaped_cases (hc : c.toNat < 0x10000) :
    (c = ' ' ∧ escaped c = [' ']) ∨ (isRaw c = true ∧ escaped c = [c]) ∨
      (∃ l, Quoted.escaped? l = some c ∧ escaped c = ['\\', l]) ∨
      escaped c = '\\' :: 'u' :: hexDigits 4 c.toNat := by
  unfold escaped
  split
  · exact .inr (.inr (.inl ⟨'\x22', rfl, rfl⟩))
  · exact .inr (.inr (.inl ⟨'\\', rfl, rfl⟩))
  · exact .inr (.inr (.inl ⟨'n', rfl, rfl⟩))
  · exact .inr (.inr (.inl ⟨'r', rfl, rfl⟩))
  · exact .inr (.inr (.inl ⟨'t', rfl, rfl⟩))
  · exact .inr (.inr (.inl ⟨'f', rfl, rfl⟩))
  · exact .inr (.inr (.inl ⟨'b', rfl, rfl⟩))
  · next hquote hslash _ _ _ _ _ =>
    dsimp only
    by_cases hascii : (0x20 ≤ c.toNat && c.toNat ≤ 0x7e) = true
    · rw [if_pos hascii]
      rw [Bool.and_eq_true, decide_eq_true_eq, decide_eq_true_eq] at hascii
      by_cases hspace : c = ' '
      · exact .inl ⟨hspace, by rw [hspace]⟩
      · have hne : c.toNat ≠ 0x20 := fun h => hspace (Char.toNat_inj.1 h)
        exact .inr (.inl ⟨isRaw_of_ascii (by omega) hascii.2 hquote hslash, rfl⟩)
    · rw [if_neg hascii, if_pos hc]
      exact .inr (.inr (.inr rfl))

theorem scanFrom_string (hgap : gap.isCrossing = false) (h : isBasic cs = true) :
    scanFrom true reversed (.text gap) (cs.flatMap escaped ++ '\x22' :: rest) =
      .ok (reversed.reverse ++ gap.text ++ cs, rest) := by
  induction cs generalizing reversed gap with
  | nil =>
    rw [List.flatMap_nil, List.nil_append, scanFrom_close, List.append_nil]
  | cons c cs ih =>
    obtain ⟨hc, hcs⟩ : c.toNat < 0x10000 ∧ isBasic cs = true := by
      simpa [isBasic] using h
    rw [List.flatMap_cons, List.append_assoc]
    rcases escaped_cases hc with ⟨rfl, heq⟩ | ⟨hraw, heq⟩ | ⟨l, hl, heq⟩ | heq
    · obtain ⟨htext, hstraight⟩ := Gap.text_addBlank hgap ' '
      rw [heq, List.singleton_append, scanFrom_gap rfl, ih hstraight hcs, htext]
      simp
    · rw [heq, List.singleton_append, scanFrom_raw hraw, ih rfl hcs]
      simp [Gap.text]
    · rw [heq, List.cons_append, List.singleton_append, scanFrom_letter hl, ih rfl hcs]
      simp [Gap.text]
    · have hcode : scanFrom true reversed (.text gap)
          ('\\' :: 'u' :: ((hexDigits 4 c.toNat).map id ++ (cs.flatMap escaped ++ '\x22' :: rest))) =
            scanFrom true (c :: (gap.text.reverse ++ reversed)) (.text .nothing)
              (cs.flatMap escaped ++ '\x22' :: rest) :=
        scanFrom_code hexCase_small rfl rfl hc
      rw [List.map_id] at hcode
      rw [heq, List.cons_append, List.cons_append, hcode, ih rfl hcs]
      simp [Gap.text]

/-- **A JSON string is read back** between double quotes. -/
theorem scan_string (h : isBasic cs = true) (rest : List Char) :
    Quoted.scan true (cs.flatMap escaped ++ '\x22' :: rest) = .ok (cs, rest) :=
  scanFrom_string rfl h

end Stencil.Json
