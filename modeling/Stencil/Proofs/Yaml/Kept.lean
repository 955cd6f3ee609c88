import Stencil.Proofs.Text.Utf8
import Stencil.Yaml.Read
import Stencil.Yaml.Style

/-!
# Characters that files keep

A character is *kept* if a file may hold it and reading leaves it as it is, which the carriage return
is not. A text of such characters is what is read from its bytes (`read_encode`).
-/

namespace Stencil.Yaml

/-- A character that a file may hold and that reading leaves as it is. -/
def isKept (c : Char) : Bool := isReadable c && c != '\r'

variable {c : Char} {cs : List Char}

theorem isKept_of_ascii (h : 0x20 ≤ c.toNat ∧ c.toNat ≤ 0x7e) : isKept c = true := by
  have hreturn : c ≠ '\r' := by
    rintro rfl
    exact absurd h.1 (by decide)
  simp [isKept, isReadable, h.1, h.2, hreturn]

/-- What may stand in a document as itself is kept. -/
theorem isKept_of_isPlainChar (h : isPlainChar c = true) : isKept c = true := by
  have hreturn : c ≠ '\r' := by
    rintro rfl
    cases h
  simp only [isPlainChar, Bool.or_eq_true, Bool.and_eq_true, decide_eq_true_eq, beq_iff_eq] at h
  simp only [isKept, isReadable, Bool.or_eq_true, Bool.and_eq_true, decide_eq_true_eq, beq_iff_eq,
    bne_iff_ne]
  refine ⟨?_, hreturn⟩
  rcases h with (((((hfeed | hascii) | hnext) | hlow) | hhigh) | hastral)
  · simp [hfeed]
  · simp [hascii]
  · simp [hnext]
  · simp [hlow]
  · simp [hhigh.1]
  · simp [hastral.1]

theorem unifyBreaks_of_kept (h : ∀ c ∈ cs, isKept c = true) : Text.unifyBreaks cs = cs := by
  induction cs with
  | nil => rfl
  | cons c cs ih =>
    obtain ⟨hc, hcs⟩ := List.forall_mem_cons.1 h
    have hreturn : c ≠ '\r' := by
      rintro rfl
      exact absurd hc (by decide)
    have hpair : ∀ ds, c = '\r' → cs = '\n' :: ds → False := fun _ h _ => hreturn h
    rw [Text.unifyBreaks.eq_3 _ _ hpair, ih hcs, if_neg (by simpa using hreturn)]

theorem readable?_encode (h : ∀ c ∈ cs, isKept c = true) :
    readable? (Text.Utf8.encode cs) = some cs := by
  have hreadable : cs.all isReadable = true := by
    rw [List.all_eq_true]
    intro c hc
    have hkept := h c hc
    rw [isKept, Bool.and_eq_true] at hkept
    exact hkept.1
  rw [readable?, Text.Utf8.decode?_encode, Option.filter_some, if_pos hreadable]

/-- What is read from the bytes of a text of such characters hangs on the text alone, where a value
has no sets and its node does not hold itself. -/
theorem read_encode {lib : Library} (hroom : lib.isTooDeep (Text.Utf8.encode cs) = false)
    (h : ∀ c ∈ cs, isKept c = true) {n : Node} {v : Value}
    (hnode : (TokenStream.ofText cs).node? = .ok (some n)) (htree : n.holdsItself = false)
    (hvalue : n.valueAt 0 = .ok v) (hordered : v.ordered lib.order = v) :
    read lib (Text.Utf8.encode cs) = .ok v := by
  rw [read, hroom, readable?_encode h]
  dsimp only
  rw [if_neg Bool.false_ne_true, readText, unifyBreaks_of_kept h, hnode]
  show valueOf lib n = _
  rw [valueOf, if_neg (by simp [htree]), Node.value, hvalue]
  show Except.ok (v.ordered lib.order) = _
  rw [hordered]

end Stencil.Yaml
