import Stencil.Command.Program

/-!
# The console

What is printed for a report. Pages of help, the words for refused arguments and the trace of a fault
that breaks a run off are made by the parser of arguments and by the interpreter. A `Console` has
these texts; it says nothing of the result and the log of a run.
-/

namespace Stencil

/-- The texts that the program itself does not make. -/
structure Console where
  help : Option Command → String
  usage : Refusal → String
  trace : Crash → String

namespace Console

/-- The options of every command. -/
def commonOptions : List String :=
  ["--var KEY=VALUE", "--scope FILE", "--global KEY=VALUE", "--global-file FILE", "--type SCOPES",
   "--default TEXT", "--output FILE", "--debug", "--quiet", "--log-level LEVEL", "-h, --help"]

/-- The lines of a short page of help. -/
def lines : Option Command → List String
  | none => ["usage: varsub [-h] COMMAND ...", "  render", "  text"]
  | some c =>
    let (argument, own) := match c with
      | .render => ("TEMPLATE", ["--recurse", "--include-nulls", "--format FORMAT"])
      | .text => ("TEXT", ["--shape SHAPE"])
    ("usage: varsub " ++ c.name ++ " [OPTIONS] " ++ argument) ::
      (own ++ commonOptions).map ("  " ++ ·)

/-- The words for a fault that breaks a run off. -/
def words : Crash → String
  | .loading _ => "a file holds a value that cannot be read"
  | .filling _ => "a value cannot be filled in"
  | .endless => "maximum recursion depth exceeded"
  | .output e => e.message
  | .unusablePath => "no file can have this path"
  | .system e => e.words

/-- Short texts. -/
def short : Console where
  help page? := String.join ((lines page?).map (· ++ "\n"))
  usage r := "varsub: " ++ r.message ++ "\n"
  trace c := "varsub: " ++ words c ++ "\n"

end Console

namespace Report

/-- What is printed to standard output. -/
def standardOutput (console : Console) : Report → String
  | refused _ => ""
  | help page? _ => console.help page?
  | done _ output _ => String.ofList output

/-- What is printed to standard error. -/
def standardError (console : Console) : Report → String
  | refused r => console.usage r
  | help _ _ => ""
  | done ending _ records =>
    String.join (records.map LogRecord.line) ++
      match ending with
      | .exit _ => ""
      | .crash c => console.trace c

/-- The exit code of the program. -/
def code : Report → Nat
  | refused _ => 2
  | help _ isAnswer => if isAnswer then 0 else 1
  | done (.exit n) _ _ => n
  | done (.crash _) _ _ => 1

end Report
end Stencil
