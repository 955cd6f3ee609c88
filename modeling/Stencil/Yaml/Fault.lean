/-!
# Faults of documents

Why the text of a document has no value. Most faults are of one kind: the text is not well formed,
or a node does not suit its tag. Apart from these stand the faults of a scalar whose tag promises a
number, a boolean or a day that its text does not name, escapes of characters that do not exist, and
numbers with too many digits. One fault is no fault of the text: the reader descends into nested
collections, and the room for that is not without end.
-/

namespace Stencil.Yaml

/-- Why a document has no value. -/
inductive Fault where
  /-- The bytes are not well-formed UTF-8. -/
  | undecodable
  /-- The text is no single document, or a node does not suit its tag. -/
  | malformed
  /-- An escape stands for a number past the last character. -/
  | noCharacter
  /-- An escape stands for a number past all signed words of 32 bits. -/
  | hugeEscape
  /-- The text of a number is no number, or it has too many digits. -/
  | notNumber
  /-- The text of a number is empty or no more than its sign. -/
  | emptyNumber
  /-- A part of a number in base sixty weighs more than any double. -/
  | hugeNumber
  /-- The text of a boolean is neither true nor false. -/
  | notBool
  /-- The text of a timestamp has not the form of one. -/
  | notTimestamp
  /-- A timestamp names no day, or no time of one. -/
  | noSuchDay
  /-- A collection stands for a timestamp. -/
  | notText
  /-- The collections lie too deep inside each other for the reader. -/
  | tooDeep
deriving DecidableEq, Inhabited

/-- What was read, or the fault of a text that is not well formed. -/
def required (x : Option α) : Except Fault α :=
  match x with
  | some a => .ok a
  | none => .error .malformed

end Stencil.Yaml
