import Mathlib.Data.List.Induction
import Stencil.Proofs.Itemwise
import Stencil.Proofs.Number.Digits
import Stencil.Yaml.Token.Stream

/-!
# The flaws of a text

A part of a text that is read into one token is at fault in its form, or the text has a *flaw* of one of
two kinds (`TextFlaw`): an escape of eight digits for a number that is no character's, or a version in
more digits than a number may have.

**Escapes.** The flaw of an escape is seen at its last digit only. `Quoted.Pending` says what has been
read of an escape by then.

Main results: `Quoted.scan_error`, `Name.directive_error`.
-/

namespace Stencil.Yaml

open Text

/-- What is wrong with a text whose tokens cannot be read, apart from its form. -/
inductive TextFlaw (cs : List Char) : Fault → Prop
  /-- An escape of eight digits stands for a number past the last character. -/
  | escape {ds : List Char} {n : Nat} (hpart : '\\' :: 'U' :: ds <:+: cs) (hlength : ds.length = 8)
      (hn : hexNumber? ds = some n) (hlast : 0x110000 ≤ n) :
      TextFlaw cs (if Quoted.wordBound ≤ n then .hugeEscape else .noCharacter)
  /-- A line gives the version of the format with a number of too many digits. -/
  | version {between ds : List Char} (hpart : '%' :: ("YAML".toList ++ (between ++ ds)) <:+: cs)
      (hline : ∀ c ∈ between, isBreak c = false) (hdigits : ∀ c ∈ ds, c.isDigit = true)
      (hlong : Integer.digitLimit < ds.length) : TextFlaw cs .notNumber

variable {cs ds : List Char} {e : Fault}

theorem TextFlaw.mono (h : TextFlaw cs e) (hpart : cs <:+: ds) : TextFlaw ds e := by
  cases h with
  | escape hcs hlength hn hlast => exact .escape (hcs.trans hpart) hlength hn hlast
  | version hcs hline hdigits hlong => exact .version (hcs.trans hpart) hline hdigits hlong

/-! ## Escapes -/

namespace Quoted

theorem hexValue?_lt {c : Char} {d : Nat} (h : hexValue? c = some d) : d < 16 := by
  unfold hexValue? at h
  dsimp only at h
  split at h
  · next hc =>
    obtain ⟨-, hhigh⟩ : 0x30 ≤ c.toNat ∧ c.toNat ≤ 0x39 := by simpa using hc
    cases h
    omega
  · split at h
    · next hc =>
      obtain ⟨-, hhigh⟩ : 0x61 ≤ c.toNat ∧ c.toNat ≤ 0x66 := by simpa using hc
      cases h
      omega
    · split at h
      · next hc =>
        obtain ⟨-, hhigh⟩ : 0x41 ≤ c.toNat ∧ c.toNat ≤ 0x46 := by simpa using hc
        cases h
        omega
      · cases h

theorem hexNumber?_concat (ds : List Char) (c : Char) :
    hexNumber? (ds ++ [c]) = (hexNumber? ds).bind fun n => (hexValue? c).map (16 * n + ·) := by
  simp [hexNumber?, List.foldlM_append]

/-- Numbers are bounded by the count of their digits. -/
theorem hexNumber?_lt {n : Nat} (h : hexNumber? ds = some n) : n < 16 ^ ds.length := by
  induction ds using List.reverseRecOn generalizing n with
  | nil =>
    cases h
    exact Nat.one_pos
  | append_singleton ds c ih =>
    rw [hexNumber?_concat, Option.bind_eq_some_iff] at h
    obtain ⟨m, hm, h⟩ := h
    obtain ⟨d, hd, rfl⟩ := Option.map_eq_some_iff.1 h
    have hmlt := ih hm
    have hdlt := hexValue?_lt hd
    rw [List.length_append, List.length_singleton, Nat.pow_succ]
    omega

theorem codeDigits?_eq_some {c : Char} {k : Nat} (h : codeDigits? c = some k) :
    (k = 2 ∨ k = 4) ∨ k = 8 ∧ c = 'U' := by
  unfold codeDigits? at h
  split at h
  · cases h
    exact .inl (.inl rfl)
  · cases h
    exact .inl (.inr rfl)
  · cases h
    exact .inr ⟨rfl, rfl⟩
  · cases h

/-- What stands before the place at which an escape is being read. -/
def Pending (before : List Char) : Mode → Prop
  | .escape => ∃ start, before = start ++ ['\\']
  | .code digits value => ∃ start letter ds, before = start ++ '\\' :: letter :: ds ∧
      codeDigits? letter = some (ds.length + digits) ∧ 0 < digits ∧ hexNumber? ds = some value
  | _ => True

theorem ofCode_error {n : Nat} (h : ofCode n = .error e) :
    0x110000 ≤ n ∧ e = if wordBound ≤ n then .hugeEscape else .noCharacter := by
  unfold ofCode at h
  split at h
  · next hword =>
    cases h
    have hlast : 0x110000 ≤ n := Nat.le_trans (by decide) hword
    exact ⟨hlast, (if_pos hword).symm⟩
  · next hword =>
    split at h
    · next hlast =>
      cases h
      exact ⟨hlast, (if_neg hword).symm⟩
    · cases h

variable {isDouble : Bool} {before rest : List Char} {c : Char} {mode : Mode}

/-- The digits of an escape up to its last one: a number past the last character takes eight. -/
theorem flaw_of_ofCode {start : List Char} {letter d : Char} {n : Nat}
    (hdigits : codeDigits? letter = some (ds ++ [d]).length) (hn : hexNumber? (ds ++ [d]) = some n)
    (h : ofCode n = .error e) : TextFlaw (start ++ '\\' :: letter :: (ds ++ [d])) e := by
  obtain ⟨hlast, rfl⟩ := ofCode_error h
  have hlt := hexNumber?_lt hn
  obtain (hlength | hlength) | ⟨hlength, rfl⟩ := codeDigits?_eq_some hdigits
  · rw [hlength] at hlt
    omega
  · rw [hlength] at hlt
    omega
  · exact .escape (List.suffix_append _ _).isInfix hlength hn hlast

/-- What a character may come to: what is waited for next is pending, or a fault has its flaw. -/
def Fits (before : List Char) : Except Fault (List Char × Option Mode) → Prop
  | .ok (_, some next) => Pending before next
  | .ok (_, none) => True
  | .error e => e = .malformed ∨ TextFlaw before e

/-- Between escapes only a backslash begins one. -/
theorem step_text_fits (gap : Gap) : Fits (before ++ [c]) (step isDouble (.text gap) c rest) := by
  unfold step
  dsimp only
  split
  · trivial
  · split
    · split
      · exact .inl rfl
      · trivial
    · split
      · trivial
      · split
        · next hc =>
          obtain ⟨-, rfl⟩ : isDouble = true ∧ c = '\\' := by simpa using hc
          exact ⟨before, rfl⟩
        · split <;> trivial

/-- Behind the backslash comes the letter of an escape, with none of its digits read. -/
theorem step_escape_fits (start : List Char) :
    Fits (start ++ ['\\'] ++ [c]) (step isDouble .escape c rest) := by
  unfold step
  dsimp only
  split
  · trivial
  · next digits _ hdigits =>
    refine ⟨start, c, [], by simp, by simpa using hdigits, ?_, rfl⟩
    obtain (hlength | hlength) | ⟨hlength, -⟩ := codeDigits?_eq_some hdigits <;> omega
  · split
    · trivial
    · exact .inl rfl

/-- A digit of an escape is the last one, where the number is judged, or one of those before. -/
theorem step_code_fits {digits value : Nat} {start : List Char} {letter : Char}
    (hdigits : codeDigits? letter = some (ds.length + digits)) (hpos : 0 < digits)
    (hvalue : hexNumber? ds = some value) :
    Fits (start ++ '\\' :: letter :: ds ++ [c]) (step isDouble (.code digits value) c rest) := by
  have hlength : (ds ++ [c]).length = ds.length + 1 := by simp
  have hassoc : start ++ '\\' :: letter :: ds ++ [c] = start ++ '\\' :: letter :: (ds ++ [c]) := by
    simp
  rw [hassoc]
  unfold step
  dsimp only
  split
  · exact .inl rfl
  · next d hd =>
    have hn : hexNumber? (ds ++ [c]) = some (16 * value + d) := by
      rw [hexNumber?_concat, hvalue, Option.bind_some, hd, Option.map_some]
    split
    · next hlast =>
      have hall : codeDigits? letter = some (ds ++ [c]).length := by
        rw [hdigits, hlength]
        congr 1
        omega
      rcases hcode : ofCode (16 * value + d) with e | c'
      · exact .inr (flaw_of_ofCode hall hn hcode)
      · trivial
    · refine ⟨start, letter, ds ++ [c], rfl, ?_, by omega, hn⟩
      rw [hdigits, hlength]
      congr 1
      omega

theorem step_fits (hpending : Pending before mode) :
    Fits (before ++ [c]) (step isDouble mode c rest) := by
  cases mode with
  | text gap => exact step_text_fits gap
  | quote =>
    unfold step
    dsimp only
    split <;> trivial
  | escape =>
    obtain ⟨start, rfl⟩ := hpending
    exact step_escape_fits start
  | code digits value =>
    obtain ⟨start, letter, ds, rfl, hdigits, hpos, hvalue⟩ := hpending
    exact step_code_fits hdigits hpos hvalue

/-- A fault in a quoted scalar has its flaw in what stands before and behind the place. -/
theorem scanFrom_error {reversed : List Char} (hpending : Pending before mode)
    (h : scanFrom isDouble reversed mode rest = .error e) :
    e = .malformed ∨ TextFlaw (before ++ rest) e := by
  induction rest generalizing before mode reversed with
  | nil =>
    unfold scanFrom at h
    split at h
    · cases h
    · cases h
      exact .inl rfl
  | cons c rest ih =>
    have hfits : Fits (before ++ [c]) (step isDouble mode c rest) := step_fits hpending
    have hassoc : before ++ [c] ++ rest = before ++ c :: rest := by simp
    rw [scanFrom] at h
    rcases hstep : step isDouble mode c rest with e' | ⟨text, next?⟩
    · rw [hstep] at h hfits
      cases h
      exact hfits.imp_right fun hflaw => hflaw.mono (hassoc ▸ (List.prefix_append _ _).isInfix)
    · rw [hstep] at h hfits
      cases next? with
      | none => cases h
      | some next =>
        rw [← hassoc]
        exact ih hfits h

theorem scan_error (h : scan isDouble cs = .error e) : e = .malformed ∨ TextFlaw cs e := by
  have hpending : Pending [] (.text .nothing) := trivial
  exact scanFrom_error hpending h

end Quoted

/-! ## Versions -/

namespace Name

theorem required_error {α : Type} {x : Option α} (h : required x = .error e) : e = .malformed := by
  cases x with
  | some a => cases h
  | none =>
    cases h
    rfl

/-- A number that is at fault, but not in its form, has too many digits. -/
theorem number_error (h : number cs = .error e) :
    e = .malformed ∨ e = .notNumber ∧ Integer.digitLimit < (cs.takeWhile Char.isDigit).length := by
  unfold number at h
  dsimp only at h
  split at h
  · cases h
    exact .inl rfl
  · split at h
    · next hlong =>
      cases h
      exact .inr ⟨rfl, hlong⟩
    · cases h

theorem number_ok {n : Nat} {rest : List Char} (h : number cs = .ok (n, rest)) :
    cs = cs.takeWhile Char.isDigit ++ rest := by
  unfold number at h
  dsimp only at h
  split at h
  · cases h
  · split at h
    · cases h
    · cases h
      exact List.takeWhile_append_dropWhile.symm

/-- The text stands in one line, and its end is a number of too many digits. -/
structure EndsInLongNumber (cs : List Char) : Prop where
  exists_digits : ∃ between ds, cs = between ++ ds ∧ (∀ c ∈ between, isBreak c = false) ∧
    (∀ c ∈ ds, c.isDigit = true) ∧ Integer.digitLimit < ds.length

theorem endsInLongNumber {between : List Char} (hbetween : ∀ c ∈ between, isBreak c = false)
    (h : Integer.digitLimit < (cs.takeWhile Char.isDigit).length) :
    EndsInLongNumber (between ++ cs.takeWhile Char.isDigit) :=
  ⟨between, _, rfl, hbetween, fun _ hc => List.mem_takeWhile_imp hc, h⟩

/-- A version that is at fault, but not in its form, begins with a part that ends in a long number. -/
theorem version_error (h : version cs = .error e) :
    e = .malformed ∨ e = .notNumber ∧ ∃ part, EndsInLongNumber part ∧ part <+: cs := by
  obtain ⟨spaces, digits, hspaces, hcs, hdigits⟩ : ∃ spaces digits,
      (∀ c ∈ spaces, isBreak c = false) ∧ cs = spaces ++ digits ∧ skipSpaces cs = digits := by
    refine ⟨cs.takeWhile (· == ' '), _, fun c hc => ?_, List.takeWhile_append_dropWhile.symm, rfl⟩
    obtain rfl : c = ' ' := by simpa using List.mem_takeWhile_imp hc
    rfl
  rw [version, hdigits] at h
  rw [hcs]
  obtain hmajor | ⟨⟨major, behind⟩, hmajor, hrest⟩ := bind_eq_error_iff.1 h
  · refine (number_error hmajor).imp_right fun ⟨he, hlong⟩ => ?_
    exact ⟨he, _, endsInLongNumber hspaces hlong,
      (List.prefix_append_right_inj _).2 (List.takeWhile_prefix _)⟩
  · have hsplit := number_ok hmajor
    have hinline : ∀ c ∈ digits.takeWhile Char.isDigit, isBreak c = false := by
      intro c hc
      obtain ⟨hlow, hhigh⟩ := toNat_of_isDigit (List.mem_takeWhile_imp hc)
      exact isBreak_of_ascii (by omega)
    dsimp only at hrest
    split at hrest
    · next minor =>
      obtain hminor | ⟨⟨_, _⟩, -, hend⟩ := bind_eq_error_iff.1 hrest
      · refine (number_error hminor).imp_right fun ⟨he, hlong⟩ => ?_
        have hbetween : ∀ c ∈ spaces ++ (digits.takeWhile Char.isDigit ++ ['.']), isBreak c = false :=
          List.forall_mem_append.2 ⟨hspaces, List.forall_mem_append.2
            ⟨hinline, List.forall_mem_singleton.2 rfl⟩⟩
        have hwhole : spaces ++ digits =
            spaces ++ (digits.takeWhile Char.isDigit ++ ['.']) ++ minor := by
          rw [List.append_assoc, List.append_assoc, List.singleton_append, ← hsplit]
        refine ⟨he, _, endsInLongNumber hbetween hlong, ?_⟩
        rw [hwhole]
        exact (List.prefix_append_right_inj _).2 (List.takeWhile_prefix _)
      · split at hend
        · cases hend
        · cases hend
          exact .inl rfl
    · cases hrest
      exact .inl rfl

theorem required_ok {α : Type} {x : Option α} {a : α} (h : required x = .ok a) : x = some a := by
  cases x with
  | some b =>
    cases h
    rfl
  | none => cases h

theorem name?_eq_some {name rest : List Char} (h : name? cs = some (name, rest)) :
    cs = name ++ rest := by
  unfold name? at h
  dsimp only at h
  split at h
  · cases h
  · cases h
    exact List.takeWhile_append_dropWhile.symm

/-- Of what directives hold only versions are at fault likewise. -/
theorem content_error {name : List Char} (h : content (String.ofList name) cs = .error e) :
    e = .malformed ∨ TextFlaw ('%' :: (name ++ cs)) e := by
  unfold content at h
  split at h
  · next hyaml =>
    obtain rfl | ⟨rfl, part, ⟨between, ds, rfl, hline, hdigits, hlong⟩, hpart⟩ := version_error h
    · exact .inl rfl
    · obtain rfl : name = "YAML".toList := by
        rw [← String.toList_ofList (l := name), eq_of_beq hyaml]
      have hprefix := (List.prefix_append_right_inj ('%' :: "YAML".toList)).2 hpart
      exact .inr (.version hprefix.isInfix hline hdigits hlong)
  · split at h
    · exact .inl (required_error h)
    · cases h

/-- A directive behind its percent sign that is at fault likewise. -/
theorem directive_error (h : directive cs = .error e) :
    e = .malformed ∨ TextFlaw ('%' :: cs) e := by
  unfold directive at h
  obtain hname | ⟨⟨name, behind⟩, hname, hrest⟩ := bind_eq_error_iff.1 h
  · exact .inl (required_error hname)
  rw [name?_eq_some (required_ok hname)]
  dsimp only at hrest
  split at hrest
  · cases hrest
    exact .inl rfl
  · obtain hcontent | ⟨_, -, hend⟩ := bind_eq_error_iff.1 hrest
    · exact content_error hcontent
    · obtain hline | ⟨_, -, hend⟩ := bind_eq_error_iff.1 hend
      · exact .inl (required_error hline)
      · cases hend

end Name

end Stencil.Yaml
