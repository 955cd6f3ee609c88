import Stencil.Command.Run

/-!
# The program

From the arguments of a run to what can be seen of it: how it ended, what it wrote, and what it left
behind. The log is shown from a threshold on, which has no bearing on anything else. It is the one
that the first command of the process asked for: the log is set up once, and later commands find it
as it is.
-/

namespace Stencil

/-- What can be seen of a run. -/
inductive Report where
  /-- The arguments were refused. -/
  | refused (r : Refusal)
  /-- A page of help was shown; `isAnswer` says that it was asked for. -/
  | help (page? : Option Command) (isAnswer : Bool)
  /-- A command was run. -/
  | done (ending : Ending) (output : List Char) (records : List LogRecord)

namespace Program

/-- The least level that a command asks for: debugging comes before quiet, and quiet before the
level it names. -/
def threshold (c : Settings) : LogLevel :=
  if c.isDebug then .debug else if c.isQuiet then .error else c.logLevel

/-- The least level that is shown: the one that was set before, or else the one asked for. -/
def least (w : World) (c : Settings) : LogLevel := w.logging.getD (threshold c)

/-- Run a command: how it ended and the state at its end. -/
def perform (c : Command) (argument : String) (settings : Settings) (w : World) :
    Ending × Progress :=
  match (Running.command c argument settings).run.run { world := w } with
  | (.ok (), s) => (.exit 0, s)
  | (.error e, s) => (e, s)

/-- Run the program. -/
def run (args : List String) (w : World) : Report × World :=
  match Arguments.read args with
  | .refused r => (.refused r, w)
  | .help page? => (.help page? true, w)
  | .nothing => (.help none false, w)
  | .run c argument settings =>
    let (ending, s) := perform c argument settings w
    (.done ending s.output (LogRecord.shown (least w settings) s.records),
      { s.world with logging := some (least w settings) })

/-- Run the program several times, each time on what the run before left. -/
def runAll (w : World) : List (List String) → List Report × World
  | [] => ([], w)
  | args :: rest =>
    let (report, w) := run args w
    let (reports, w) := runAll w rest
    (report :: reports, w)

end Program
end Stencil
