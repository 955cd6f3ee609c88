/-!
# Characters of documents

The classes of characters on which both reading and writing rest. A line of a document ends with a
line feed, a next-line character or one of the two Unicode separators; carriage returns are gone
before a document is read.
-/

namespace Stencil.Yaml

/-- A character that breaks a line inside a document. -/
def isBreak (c : Char) : Bool :=
  c == '\n' || c == '\x85' || c == '\u2028' || c == '\u2029'

/-- A space or a tab. -/
def isGap (c : Char) : Bool := c == ' ' || c == '\t'

/-- A blank or a line break. -/
def isBlankOrBreak (c : Char) : Bool := isGap c || c == '\r' || c == '\x00' || isBreak c

/-- A character that a document may hold. -/
def isReadable (c : Char) : Bool :=
  let n := c.toNat
  c == '\t' || c == '\n' || c == '\r' || (0x20 ≤ n && n ≤ 0x7e) || n == 0x85 ||
    (0xa0 ≤ n && n ≤ 0xd7ff) || (0xe000 ≤ n && n ≤ 0xfffd) || 0x10000 ≤ n

/-- The text ends here, or a blank or a line break follows. -/
def endsHere (cs : List Char) : Bool := (cs.head?.map isBlankOrBreak).getD true

/-- The line ends here. -/
def endsLine (cs : List Char) : Bool := (cs.head?.map isBreak).getD true

/-- The line ends here, or a space follows. -/
def endsWord (cs : List Char) : Bool := cs.head? == some ' ' || endsLine cs

/-- The text begins like the start or the end of a document. -/
def beginsLikeMarker (cs : List Char) : Bool :=
  cs.take 3 == ['-', '-', '-'] || cs.take 3 == ['.', '.', '.']

/-- At the begin of a line the text starts or ends a document. -/
def beginsWithMarker (cs : List Char) : Bool := beginsLikeMarker cs && endsHere (cs.drop 3)

/-- What a line break inside a scalar stands for. -/
def breakChar (c : Char) : Char := if c == '\x85' then '\n' else c

/-! ## Basic facts -/

/-- No character between the space and the tilde breaks a line. -/
theorem isBreak_of_ascii {c : Char} (h : 0x20 ≤ c.toNat ∧ c.toNat ≤ 0x7e) : isBreak c = false := by
  have hne : ∀ d : Char, (d.toNat < 0x20 ∨ 0x7e < d.toNat) → (c == d) = false := by
    intro d hd
    rw [beq_eq_false_iff_ne]
    rintro rfl
    omega
  simp only [isBreak, hne '\n' (by decide), hne '\x85' (by decide), hne '\u2028' (by decide),
    hne '\u2029' (by decide), Bool.or_false]

theorem isGap_of_isBreak {c : Char} (h : isBreak c = true) : isGap c = false := by
  simp only [isBreak, Bool.or_eq_true, beq_iff_eq] at h
  rcases h with ((rfl | rfl) | rfl) | rfl <;> decide

/-- The mark of a document begins with a dash or a point. -/
theorem beginsWithMarker_cons {c : Char} (hdash : c ≠ '-') (hdot : c ≠ '.') (cs : List Char) :
    beginsWithMarker (c :: cs) = false := by
  simp [beginsWithMarker, beginsLikeMarker, hdash, hdot]

@[simp] theorem endsHere_nil : endsHere [] = true := rfl

end Stencil.Yaml
