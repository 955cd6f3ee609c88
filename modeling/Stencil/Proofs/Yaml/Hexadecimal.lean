import Stencil.Proofs.Yaml.Word

/-!
# Integers in base sixteen

The limit of decimal text is none of hexadecimal text: every natural number has one, of as many
digits as it needs or more, which is tagged as an integer (`plainTag_hexText`) and read as the number
(`Scalar.int_hexText`). So documents hold integers that cannot be shown.
-/

namespace Stencil

open Text

namespace Integer

variable {width n : Nat}

theorem foldlM_hexDigits (hn : n < 16 ^ width) (m : Nat) :
    (hexDigits width n).foldlM (fun m c => (digitIn? 16 c).map (16 * m + ·)) m =
      some (m * 16 ^ width + n) := by
  induction width generalizing n with
  | zero =>
    obtain rfl : n = 0 := by simpa using hn
    simp [hexDigits]
  | succ width ih =>
    have hlow : digitIn? 16 (hexDigit (n % 16)) = some (n % 16) := by
      rw [digitIn?, hexValue?_hexDigit _ (Nat.mod_lt _ (by decide)), Option.filter_some,
        if_pos (by simpa using Nat.mod_lt n (by decide))]
    rw [hexDigits, List.foldlM_append, ih (div_lt_of_lt_pow hn)]
    simp [hlow, lastDigit_behind]

theorem mem_hexDigits {p : Char → Prop} (h : ∀ d < 16, p (hexDigit d)) {c : Char}
    (hc : c ∈ hexDigits width n) : p c :=
  forall_hexDigits h width n c hc

theorem hexDigits_ne_nil (hwidth : 0 < width) : hexDigits width n ≠ [] := by
  rw [← List.length_pos_iff, length_hexDigits]
  exact hwidth

theorem strip_hexDigits (width n : Nat) : strip (hexDigits width n) = hexDigits width n := by
  have hblank : ∀ c ∈ hexDigits width n, isBlank c = false :=
    forall_hexDigits (by decide) width n
  exact strip_eq_self (fun c hc => hblank c (List.mem_of_mem_head? hc))
    fun c hc => hblank c (List.mem_of_getLast? hc)

theorem splitSign_hexDigits (width n : Nat) :
    splitSign (hexDigits width n) = (false, hexDigits width n) := by
  have hsign : ∀ c ∈ hexDigits width n, c ≠ '-' ∧ c ≠ '+' := forall_hexDigits (by decide) width n
  unfold splitSign
  split
  · next heq => exact absurd rfl (hsign '-' (heq ▸ List.mem_cons_self)).1
  · next heq => exact absurd rfl (hsign '+' (heq ▸ List.mem_cons_self)).2
  · rfl

theorem dropBaseMark_hexDigits (width n : Nat) :
    dropBaseMark 16 (hexDigits width n) = hexDigits width n := by
  have hdigit : ∀ c ∈ hexDigits width n, c.toLower = c ∧ c ≠ 'x' :=
    forall_hexDigits (by decide) width n
  unfold dropBaseMark
  split
  · next c cs heq =>
    obtain ⟨hlower, hmark⟩ := hdigit c (heq ▸ List.mem_cons_of_mem _ List.mem_cons_self)
    rw [heq]
    simp [hlower, hmark]
  · rfl

/-- **Hexadecimal digits are read without limit.** -/
theorem read?_hexDigits (hwidth : 0 < width) (hn : n < 16 ^ width) :
    read? 16 (hexDigits width n) = some (n : Int) := by
  have hascii : (hexDigits width n).map asciiDigit = hexDigits width n := by
    refine (List.map_congr_left fun c hc => ?_).trans (List.map_id _)
    exact mem_hexDigits (p := fun c => asciiDigit c = c) (by decide) hc
  have hunderscore : '_' ∉ hexDigits width n := fun hmem =>
    mem_hexDigits (p := (· ≠ '_')) (by decide) hmem rfl
  have hempty : (hexDigits width n).isEmpty = false :=
    List.isEmpty_eq_false_iff.2 (hexDigits_ne_nil hwidth)
  have hmagnitude : magnitude? 16 (hexDigits width n) = some n := by
    rw [magnitude?, ungroup?_eq_self hunderscore]
    show (if ((hexDigits width n).isEmpty || (false && _)) = true then none else _) = _
    rw [hempty, Bool.false_and, if_neg (by decide)]
    simpa using foldlM_hexDigits hn 0
  unfold read?
  rw [strip_hexDigits, hascii, splitSign_hexDigits]
  dsimp only
  rw [dropBaseMark_hexDigits, hmagnitude]
  rfl

end Integer

namespace Yaml

open Integer

variable {width n : Nat} {rules : List Rule}

/-- The text of a number in base sixteen. -/
def hexText (width n : Nat) : List Char := '0' :: 'x' :: hexDigits width n

theorem forall_hexText {p : Char → Prop} (hzero : p '0') (hmark : p 'x')
    (hdigit : ∀ d < 16, p (hexDigit d)) : ∀ c ∈ hexText width n, p c :=
  List.forall_mem_cons.2 ⟨hzero, List.forall_mem_cons.2 ⟨hmark, forall_hexDigits hdigit width n⟩⟩

theorem isWord_hexText (width n : Nat) : IsWord (hexText width n) where
  letters := forall_hexText (by decide) (by decide) (by decide)
  begins := ⟨false, '0', 'x' :: hexDigits width n, rfl, by decide⟩

/-- The text is tagged as an integer. -/
theorem plainTag_hexText (hrules : IsSchema rules) (hwidth : 0 < width) :
    plainTag rules (hexText width n) = .int := by
  have hdigit : ∀ c ∈ hexDigits width n, (hexValue? c).isSome = true :=
    forall_hexDigits (by decide) width n
  have hfloat : Rule.isFloat (hexText width n) = false := by
    have hnone : (hexText width n).dropWhile (· != '.') = [] :=
      List.dropWhile_eq_nil_iff.2 (forall_hexText (by decide) (by decide) (by decide))
    unfold Rule.isFloat
    dsimp only
    rw [show Rule.unsigned (hexText width n) = hexText width n from rfl, hnone]
  have hint : Rule.isInt (hexText width n) = true := by
    obtain ⟨c, cs, hcs⟩ := List.exists_cons_of_ne_nil (hexDigits_ne_nil (n := n) hwidth)
    have hmarked : Rule.isMarked 'x' (fun c => (hexValue? c).isSome || c == '_') (hexText width n) =
        true := by
      rw [hexText, hcs, Rule.isMarked, ← hcs]
      simp only [beq_self_eq_true, Bool.true_and, List.all_eq_true]
      intro c hc
      rw [hdigit c hc, Bool.true_or]
    unfold Rule.isInt
    dsimp only
    rw [show Rule.unsigned (hexText width n) = hexText width n from rfl, hmarked]
    simp
  have hlast : (hexText width n).getLast? ≠ some '\n' := fun h =>
    forall_hexText (p := (· ≠ '\n')) (by decide) (by decide) (by decide) _ (List.mem_of_getLast? h) rfl
  rw [hexText] at hlast hfloat hint ⊢
  rw [plainTag_number hrules (.inr rfl) hlast (by rw [hint, Bool.or_true]), hfloat]
  rfl

/-- **Every natural number is the value of a text**, also past the limit of decimal text. -/
theorem Scalar.int_hexText (hwidth : 0 < width) (hn : n < 16 ^ width) :
    Scalar.int (hexText width n) = .ok (n : Int) := by
  have hfilter : (hexText width n).filter (· != '_') = hexText width n :=
    List.filter_eq_self.2 (forall_hexText (by decide) (by decide) (by decide))
  have hsigned : Scalar.signed (hexText width n) = .ok (false, hexText width n) := by
    rw [Scalar.signed, hfilter]
    rfl
  have hmagnitude : Scalar.magnitude (hexText width n) = .ok (n : Int) := by
    rw [hexText, Scalar.magnitude, read?_hexDigits hwidth hn]
    rfl
  rw [Scalar.int, hsigned]
  show (Scalar.magnitude (hexText width n) >>= _) = _
  rw [hmagnitude]
  rfl

end Yaml
end Stencil
