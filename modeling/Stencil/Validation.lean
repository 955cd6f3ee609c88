/-!
# Validation errors

Faults in files and arguments are gathered as complaints and reported together, a line for each.
-/

namespace Stencil

/-- One fault, perhaps with the path of the file that it is in. -/
structure Complaint where
  message : String
  path : String := ""
  exitCode : Int := 2
deriving DecidableEq

/-- The line that reports a complaint. -/
def Complaint.line (c : Complaint) : String :=
  if c.path.isEmpty then "Validation error: " ++ c.message
  else "Validation error: " ++ c.path ++ ": " ++ c.message

/-- Faults that make an input unusable. -/
structure ValidationError where
  complaints : List Complaint
deriving DecidableEq

namespace ValidationError

/-- The words for an error: the lines of its complaints. -/
def message (e : ValidationError) : String :=
  "\n".intercalate (e.complaints.map Complaint.line)

/-- The exit code of a command that ends with such an error. -/
def exitCode (_ : ValidationError) : Nat := 2

end ValidationError
end Stencil
