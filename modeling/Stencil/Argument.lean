import Stencil.Selector
import Stencil.Shape
import Stencil.Text.Blank
import Stencil.Value.Quoted

/-!
# Shapes and selectors as arguments

A caller names a shape or a selector by its name, in any mixture of capital and small letters and
with blanks around it, or gives the shape or selector itself; a shape also by a type of values.
Everything else is an invalid argument, and the message shows it.
-/

namespace Stencil

open Text

/-- A type of values that can be named as such. -/
inductive TypeName where
  | text | integer | float | decimal | boolean | list | document | any | set | tuple | bytes
deriving DecidableEq

namespace TypeName

/-- The quoted form of a type. -/
def quoted : TypeName → String
  | text => "<class 'str'>"
  | integer => "<class 'int'>"
  | float => "<class 'float'>"
  | decimal => "<class 'decimal.Decimal'>"
  | boolean => "<class 'bool'>"
  | list => "<class 'list'>"
  | document => "<class 'dict'>"
  | any => "<class 'object'>"
  | set => "<class 'set'>"
  | tuple => "<class 'tuple'>"
  | bytes => "<class 'bytes'>"

/-- The shape whose values have a type. -/
def shape? : TypeName → Option Shape
  | text => some .string
  | integer => some .integer
  | float => some .float
  | decimal => some .decimal
  | boolean => some .boolean
  | list => some .list
  | document => some .document
  | any => some .any
  | set | tuple | bytes => none

end TypeName

/-- What a caller may pass where a shape or a selector is asked for. -/
inductive Argument where
  | value (v : Value)
  | shape (s : Shape)
  | selector (s : Selector)
  | type (t : TypeName)

/-- Why an argument names nothing. -/
inductive ArgumentError where
  | missingShape
  | unknownShape (shown : String)
  | unknownSelector (shown : String)
  /-- The argument holds an integer past the limit of decimal text, so it cannot be shown. -/
  | unshowable
deriving DecidableEq

/-- A list of names in quotes. -/
def quotedNames (names : List String) : String :=
  String.ofList ('[' :: Value.joinWith [',', ' '] (names.map fun n => Text.quoted n.toList) ++ [']'])

/-- The words for an error. -/
def ArgumentError.message : ArgumentError → String
  | missingShape => "target shape must be specified"
  | unknownShape shown =>
    "Unknown target shape " ++ shown ++ ". Supported: " ++ quotedNames (Shape.every.map Shape.name)
  | unknownSelector shown =>
    "Unknown substitution type " ++ shown ++ ". Supported: " ++
      quotedNames (Selector.every.map Selector.name)
  | unshowable => "integer exceeds the limit for decimal text"

namespace Argument

/-- The quoted form of a member of an enumeration. -/
def quotedMember (enumeration name : String) : String :=
  "<" ++ enumeration ++ "." ++ name.toUpper ++ ": '" ++ name ++ "'>"

/-- The quoted form of an argument. -/
def quoted? : Argument → Option String
  | value v => v.quoted?.map String.ofList
  | shape s => some (quotedMember "ValueShape" s.name)
  | selector s => some (quotedMember "SubstitutionType" s.name)
  | type t => some t.quoted

/-- An argument as a name: small letters, no blanks around them. -/
def normalName (s : String) : String := String.ofList (lowercase (strip s.toList))

/-- The error for an argument that names nothing. -/
def unknown (error : String → ArgumentError) (a : Argument) : Except ArgumentError α :=
  match a.quoted? with
  | some shown => .error (error shown)
  | none => .error .unshowable

end Argument

/-- The shape that an argument names. -/
def Shape.ofArgument (a : Argument) : Except ArgumentError Shape :=
  let named : Option Shape :=
    match a with
    | .shape s => some s
    | .type t => t.shape?
    | .value (.text s) => Shape.every.find? fun shape => shape.name == Argument.normalName s
    | _ => none
  match a, named with
  | .value .null, _ => .error .missingShape
  | _, some shape => .ok shape
  | _, none => a.unknown .unknownShape

/-- The selector that an argument names; null names all scopes. -/
def Selector.ofArgument (a : Argument) : Except ArgumentError Selector :=
  let named : Option Selector :=
    match a with
    | .value .null => some .all
    | .selector s => some s
    | .value (.text s) => Selector.every.find? fun sel => sel.name == Argument.normalName s
    | _ => none
  match named with
  | some selector => .ok selector
  | none => a.unknown .unknownSelector

/-! ## Basic facts -/

@[simp] theorem Shape.ofArgument_shape (s : Shape) : Shape.ofArgument (.shape s) = .ok s := rfl

@[simp] theorem Selector.ofArgument_selector (s : Selector) :
    Selector.ofArgument (.selector s) = .ok s := rfl

/-- Names in capitals with blanks around them. -/
example : (Shape.ofArgument (.value (.text "\tInteger\n"))).toOption = some .integer ∧
    (Selector.ofArgument (.value (.text " GLOBAL"))).toOption = some .globalOnly := by
  decide +kernel

end Stencil
