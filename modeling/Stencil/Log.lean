import Stencil.Scope

/-!
# The log

What a command reports while it runs. Every record has a level; a run shows the records of its
threshold and above, and what it does is the same under every threshold. The time at the start of
each line is no part of the model.
-/

namespace Stencil

/-- How urgent a record is. -/
inductive LogLevel where
  | debug
  | info
  | warning
  | error
deriving DecidableEq, Inhabited

namespace LogLevel

/-- Levels by urgency. -/
def rank : LogLevel → Nat
  | debug => 0
  | info => 1
  | warning => 2
  | error => 3

/-- The name of a level. -/
def name : LogLevel → String
  | debug => "DEBUG"
  | info => "INFO"
  | warning => "WARNING"
  | error => "ERROR"

end LogLevel

/-- The part of the program that a record comes from. -/
inductive LogSource where
  | command
  | loader
  | scopes
  | filling
  | engine
deriving DecidableEq

/-- The name of a part of the program. -/
def LogSource.name : LogSource → String
  | command => "varsub.cli.commands.render"
  | loader => "varsub.loader"
  | scopes => "varsub.variables.scopes"
  | filling => "varsub.variables.walker"
  | engine => "varsub.variables.substitution"

/-- A record of the log. -/
structure LogRecord where
  source : LogSource
  level : LogLevel
  message : String
deriving DecidableEq

namespace LogRecord

/-- The line of a record behind its time, which is left out here. -/
def line (r : LogRecord) : String :=
  r.source.name ++ " - " ++ r.level.name ++ " - " ++ r.message ++ "\n"

/-- The records of a threshold and above. -/
def shown (threshold : LogLevel) (rs : List LogRecord) : List LogRecord :=
  rs.filter fun r => threshold.rank ≤ r.level.rank

/-- The record of an event; look-ups in the global scope leave none. -/
def ofEvent? : Event → Option LogRecord
  | .asked _ | .fetched _ => none
  | .foundLocally key index =>
    some ⟨.scopes, .debug,
      "Resolved '" ++ key ++ "' from local scope " ++ String.ofList (Integer.digits index)⟩
  | .foundGlobally key => some ⟨.scopes, .debug, "Resolved '" ++ key ++ "' from global scope"⟩
  | .keptTemplate key =>
    some ⟨.filling, .debug, "Placeholder '" ++ key ++ "' not found, keeping template text"⟩
  | .keptLiteral key =>
    some ⟨.filling, .debug, "Placeholder '" ++ key ++ "' not found, keeping literal"⟩
  | .textOnly shape =>
    some ⟨.filling, .debug,
      "Embedded placeholders compose into text only, not " ++ shape.name⟩
  | .began kind => some ⟨.engine, .debug, "Substituting " ++ kind ++ " template"⟩

/-! ## Basic facts -/

end LogRecord
end Stencil
