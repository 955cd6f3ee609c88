import Stencil.Log
import Stencil.Output
import Stencil.Text.Digit

/-!
# Arguments

How the arguments of the program are read. The first argument that is no option names the command,
which takes all arguments behind it. A command has one argument of its own and options anywhere
around it.

**Options.** An option is known by its name or by a beginning that no other option shares; its value
is attached behind an equals sign or is the next argument. Behind a double dash nothing is an
option. What begins with a dash is an argument nevertheless if it is a negative number or holds a
space and no option fits.

**Order.** Names that several options share are found out first. Then the arguments are taken from
left to right up to the first request for help or the first fault; what is superfluous or missing is
found out at the end.
-/

namespace Stencil

/-- What a command is asked for beside its argument. -/
structure Settings where
  /-- Variables of the first local scope, as pairs. -/
  pairs : List String := []
  /-- Files of local scopes. -/
  scopeFiles : List String := []
  /-- Variables of the global scope, as pairs. -/
  globalPairs : List String := []
  /-- A file of variables of the global scope. -/
  globalFile? : Option String := none
  selector : Selector := .all
  default? : Option String := none
  /-- The file that the result is written to. -/
  output? : Option String := none
  isDebug : Bool := false
  isQuiet : Bool := false
  logLevel : LogLevel := .warning
  recurse : Bool := false
  includeNulls : Bool := false
  format : OutputFormat := .yaml
  shape : Shape := .string
deriving DecidableEq

/-- A command. -/
inductive Command where
  /-- Fill a template file. -/
  | render
  /-- Fill a text. -/
  | text
deriving DecidableEq

/-- The name of a command. -/
def Command.name : Command → String
  | render => "render"
  | text => "text"

/-- What an option does. -/
inductive OptionKind where
  | help
  | flag (set : Settings → Settings)
  /-- The option takes a value; not every value need be allowed. -/
  | value (read? : String → Option (Settings → Settings))

/-- Why arguments are refused. -/
inductive Refusal where
  | ambiguous (argument : String)
  | noValue
  | needlessValue
  | badValue (value : String)
  | noArgument
  | unknownCommand (name : String)
  | superfluous
deriving DecidableEq

/-- The words for a refusal. -/
def Refusal.message : Refusal → String
  | ambiguous argument => "ambiguous option: " ++ argument
  | noValue => "an option lacks its value"
  | needlessValue => "an option takes no value"
  | badValue value => "invalid choice: " ++ value
  | noArgument => "the argument of the command is missing"
  | unknownCommand name => "unknown command: " ++ name
  | superfluous => "unrecognized arguments"

/-- What the arguments ask for. -/
inductive Invocation where
  | run (command : Command) (argument : String) (settings : Settings)
  /-- A page of help, that of the program or that of a command. -/
  | help (page? : Option Command)
  /-- There is no command. -/
  | nothing
  | refused (r : Refusal)
deriving DecidableEq

namespace Arguments

/-! ## The options -/

/-- An option whose value is one of some choices. -/
def choice (choices : List (String × α)) (set : α → Settings → Settings) : OptionKind :=
  .value fun s => (choices.lookup s).map set

/-- An option with any value. -/
def anyValue (set : String → Settings → Settings) : OptionKind := .value fun s => some (set s)

/-- The options that ask for help. -/
def helpOptions : List (String × OptionKind) := [("-h", .help), ("--help", .help)]

/-- The options of every command. -/
def commonOptions : List (String × OptionKind) :=
  helpOptions ++
  [("--var", anyValue fun v s => { s with pairs := s.pairs ++ [v] }),
   ("--scope", anyValue fun v s => { s with scopeFiles := s.scopeFiles ++ [v] }),
   ("--global", anyValue fun v s => { s with globalPairs := s.globalPairs ++ [v] }),
   ("--global-file", anyValue fun v s => { s with globalFile? := some v }),
   ("--type", choice (Selector.every.map fun x => (x.name, x)) fun v s => { s with selector := v }),
   ("--default", anyValue fun v s => { s with default? := some v }),
   ("--output", anyValue fun v s => { s with output? := some v }),
   ("--debug", .flag fun s => { s with isDebug := true }),
   ("--quiet", .flag fun s => { s with isQuiet := true }),
   ("--log-level",
     choice [("debug", .debug), ("info", .info), ("warn", .warning), ("error", .error)]
       fun v s => { s with logLevel := v })]

/-- The options of a command. -/
def options : Command → List (String × OptionKind)
  | .render =>
    commonOptions ++
    [("--recurse", .flag fun s => { s with recurse := true }),
     ("--include-nulls", .flag fun s => { s with includeNulls := true }),
     ("--format", choice [("yaml", .yaml), ("json", .json)] fun v s => { s with format := v })]
  | .text =>
    commonOptions ++
    [("--shape", choice (Shape.every.map fun x => (x.name, x)) fun v s => { s with shape := v })]

/-! ## Single arguments -/

/-- What a single argument is. -/
inductive Word where
  | argument (s : String)
  | option (kind : OptionKind) (attached? : Option String)
  /-- Letters behind the short option for help. -/
  | cluster (letters : List Char)
  | unknown
  /-- The double dash. -/
  | separator

/-- The text is a number with a minus sign. A line feed at the end does not count. -/
def isNegativeNumber (cs : List Char) : Bool :=
  let body := (if cs.getLast? == some '\n' then cs.dropLast else cs).drop 1
  let fraction := body.dropWhile Text.isDecimalDigit
  match fraction with
  | [] => !body.isEmpty
  | c :: ds => c == '.' && !ds.isEmpty && ds.all Text.isDecimalDigit

/-- What an argument with a dash is that names no option. -/
def classifyOther (s : String) : Word :=
  if isNegativeNumber s.toList || s.toList.contains ' ' then .argument s else .unknown

/-- The parts of a text before and behind its first equals sign. -/
def splitValue (cs : List Char) : List Char × Option String :=
  match cs.dropWhile (· != '=') with
  | [] => (cs, none)
  | _ :: value => (cs.takeWhile (· != '='), some (String.ofList value))

/-- What an argument is that begins with a dash and is no full name of an option. -/
def classifyPart (rules : List (String × OptionKind)) (s : String) : Except Refusal Word :=
  let (name, attached?) := splitValue s.toList
  match attached?, rules.lookup (String.ofList name) with
  | some value, some kind => .ok (.option kind (some value))
  | _, _ =>
    match s.toList with
    | '-' :: '-' :: _ =>
      match rules.filter fun rule => name.isPrefixOf rule.1.toList with
      | [] => .ok (classifyOther s)
      | [rule] => .ok (.option rule.2 attached?)
      | _ => .error (.ambiguous s)
    | '-' :: 'h' :: letters => .ok (.cluster letters)
    | _ => .ok (classifyOther s)

/-- What an argument is. -/
def classify (rules : List (String × OptionKind)) (s : String) : Except Refusal Word :=
  if s.toList.head? != some '-' || s == "-" then .ok (.argument s)
  else match rules.lookup s with
    | some kind => .ok (.option kind none)
    | none => classifyPart rules s

/-- What some arguments are. -/
def classifyAll (rules : List (String × OptionKind)) : List String → Except Refusal (List Word)
  | [] => .ok []
  | s :: rest =>
    if s == "--" then .ok (.separator :: rest.map .argument)
    else do
      let word ← classify rules s
      let words ← classifyAll rules rest
      return word :: words

/-! ## Commands -/

/-- Why the taking of arguments ends early. -/
inductive Stop where
  | help
  | refused (r : Refusal)

/-- The arguments of a command that were taken. -/
structure Taken where
  argument? : Option String := none
  settings : Settings := {}
  hasSuperfluous : Bool := false

/-- Letters behind the short option for help ask for help as well, unless what comes behind letters
for help looks like another option or a value. -/
def takeCluster : List Char → Stop
  | '-' :: _ => .refused .needlessValue
  | 'h' :: '=' :: _ => .refused .needlessValue
  | 'h' :: letters => takeCluster letters
  | _ => .help

/-- Take a value of an option. -/
def takeValue (t : Taken) (read? : String → Option (Settings → Settings)) (value : String) :
    Except Stop Taken :=
  match read? value with
  | some set => .ok { t with settings := set t.settings }
  | none => .error (.refused (.badValue value))

/-- Take arguments from left to right. A double dash right before or behind the argument of the
command belongs to it. -/
def take (t : Taken) : List Word → Except Stop Taken
  | [] => .ok t
  | .argument s :: words =>
    if t.argument?.isSome then take { t with hasSuperfluous := true } words
    else
      let t := { t with argument? := some s }
      match words with
      | .separator :: words => take t words
      | words => take t words
  | .separator :: words =>
    match t.argument?, words with
    | none, .argument s :: words => take { t with argument? := some s } words
    | _, words => take { t with hasSuperfluous := true } words
  | .unknown :: words => take { t with hasSuperfluous := true } words
  | .cluster letters :: _ => .error (takeCluster letters)
  | .option .help attached? :: _ =>
    .error (if attached?.isSome then .refused .needlessValue else .help)
  | .option (.flag set) attached? :: words =>
    if attached?.isSome then .error (.refused .needlessValue)
    else take { t with settings := set t.settings } words
  | .option (.value read?) (some value) :: words => do
    let t ← takeValue t read? value
    take t words
  | .option (.value read?) none :: words =>
    match words with
    | .argument value :: words => do
      let t ← takeValue t read? value
      take t words
    | _ => .error (.refused .noValue)

/-- What the arguments behind a command ask for. `hasSuperfluous` says that something superfluous
stood before it. -/
def ofCommand (c : Command) (hasSuperfluous : Bool) (args : List String) : Invocation :=
  match classifyAll (options c) args with
  | .error r => .refused r
  | .ok words =>
    match take {} words with
    | .error .help => .help (some c)
    | .error (.refused r) => .refused r
    | .ok t =>
      match t.argument? with
      | none => .refused .noArgument
      | some s =>
        if t.hasSuperfluous || hasSuperfluous then .refused .superfluous else .run c s t.settings

/-- What the arguments of the program ask for. -/
def readFrom (hasSuperfluous : Bool) : List String → Invocation
  | [] => if hasSuperfluous then .refused .superfluous else .nothing
  | s :: rest =>
    if s == "--" then .refused .superfluous
    else match classify helpOptions s with
      | .error r => .refused r
      | .ok (.argument s) =>
        match [Command.render, .text].find? (·.name == s) with
        | some c => ofCommand c hasSuperfluous rest
        | none => .refused (.unknownCommand s)
      | .ok (.option _ none) => .help none
      | .ok (.option _ (some _)) => .refused .needlessValue
      | .ok (.cluster letters) =>
        match takeCluster letters with
        | .help => .help none
        | .refused r => .refused r
      | .ok _ => readFrom true rest

/-- What the arguments of the program ask for. -/
def read (args : List String) : Invocation := readFrom false args

end Arguments
end Stencil
