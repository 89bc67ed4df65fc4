import Verse.Numeric.Reading
import Verse.Trace.Mode

/-!
# Command-line arguments

A command line names an action, the files that it works on, and options.  Options are
written `--name value` or `--name=value`, each at most once; `--` ends them.  `--dictionary`
may stand before or after the action's name.  The values that a program is run with may
start with a hyphen: from the first of them on, nothing is an option any more.

Arguments are looked at in turn, so of a mistake and a request for help the first counts.

* `Grammar.role`             what an argument is where it stands
* `Grammar.sort`             the options of an action, and its other arguments
* `Invocation.ofArguments`   what a command line asks for
-/

namespace Verse

/-- What to do with a program. -/
structure RunOptions where
  program : String
  /-- The input of the program; its standard input if there is none. -/
  values : List String
  trace : TraceMode
  traceFile : String
  seed : Option UInt64
deriving DecidableEq

/-- What a command line asks for. -/
inductive Action where
  /-- Run a program. -/
  | run (options : RunOptions)
  /-- List the tokens of a program. -/
  | tokens (program : String)
  /-- Look words up in the dictionary. -/
  | lookup (words : List String)
deriving DecidableEq

/-- An action, and the dictionary that it uses. -/
structure Invocation where
  dictionary : Option String
  action : Action
deriving DecidableEq

/-- Why a command line asks for no action. -/
inductive Usage where
  /-- It asks for help. -/
  | help
  /-- It cannot be understood. -/
  | wrong
deriving DecidableEq

/-- The settings of the environment that stand in for options. -/
structure Environment where
  dictionary : Option String := none
  traceFile : Option String := none
deriving DecidableEq

/-- What an argument looks like. -/
inductive Shape where
  /-- Two hyphens, which end the options. -/
  | ending
  /-- An option by its name, with a value behind an equals sign if there is one. -/
  | option (name : String) (value : Option String)
  /-- A single hyphen and more. -/
  | dashed
  | plain
deriving DecidableEq

/-- The shape of an argument. -/
def Shape.ofArgument (argument : String) : Shape :=
  match argument.toList with
  | ['-', '-'] => .ending
  | '-' :: '-' :: body =>
    let name := String.ofList (body.takeWhile (· != '='))
    match body.dropWhile (· != '=') with
    | [] => .option name none
    | _ :: value => .option name (some (String.ofList value))
  | '-' :: _ :: _ => .dashed
  | _ => .plain

/-- Whether an argument with a single hyphen asks for help, as `-h` does.  Its letters are
    read in turn, so the first decides.  Where arguments may start with a hyphen it takes
    all the letters, and any other argument is a plain one. -/
def asksForHelp (loose : Bool) (argument : String) : Bool :=
  let letters := argument.toList.drop 1
  if loose then letters.all (· == 'h') else letters.head? == some 'h'

/-- The name of a file, which cannot be empty. -/
def fileName (name : String) : Except Usage String :=
  if name.isEmpty then .error .wrong else .ok name

/-- The options that have been given. -/
structure Settings where
  dictionary : Option String := none
  trace : Option TraceMode := none
  traceFile : Option String := none
  seed : Option UInt64 := none
deriving DecidableEq

namespace Settings

/-- The value of an option that must not have been given before. -/
def once {α : Type} (given : Option α) (value : Except Usage α) : Except Usage (Option α) :=
  if given.isSome then .error .wrong else value.map some

/-- The trace mode of a name. -/
def traceMode (name : String) : Except Usage TraceMode :=
  match TraceMode.ofName? name with
  | some mode => .ok mode
  | none => .error .wrong

/-- The seed that a text stands for. -/
def seedValue (text : String) : Except Usage UInt64 :=
  match Numeric.unsigned? UInt64.size text.toList with
  | some seed => .ok (UInt64.ofNat seed)
  | none => .error .wrong

/-- Add an option with its value. -/
def set (settings : Settings) (name value : String) : Except Usage Settings := do
  match name with
  | "dictionary" =>
    return { settings with dictionary := ← once settings.dictionary (fileName value) }
  | "trace" => return { settings with trace := ← once settings.trace (traceMode value) }
  | "trace-file" =>
    return { settings with traceFile := ← once settings.traceFile (fileName value) }
  | "seed" => return { settings with seed := ← once settings.seed (seedValue value) }
  | _ => .error .wrong

end Settings

/-- What may follow the files of an action. -/
inductive Trailing where
  | nothing
  | words
  /-- Values, which may start with a hyphen. -/
  | values
deriving DecidableEq

/-- What an action takes. -/
structure Grammar where
  /-- The names of its options. -/
  options : List String
  /-- How many files it names before anything else. -/
  files : Nat
  trailing : Trailing

/-- What an argument is where it stands. -/
inductive Role where
  /-- Two hyphens, which end the options. -/
  | ending
  /-- An option with its value, if that is part of the argument. -/
  | option (name : String) (value : Option String)
  | help
  /-- One of the arguments of the action, or the value of the option before it. -/
  | plain
  /-- Nothing that can be understood. -/
  | unknown
deriving DecidableEq

namespace Grammar

/-- The grammar of running a program. -/
def run : Grammar where
  options := ["dictionary", "trace", "trace-file", "seed"]
  files := 1
  trailing := .values

/-- The grammar of listing the tokens of a program. -/
def tokens : Grammar := { options := ["dictionary"], files := 1, trailing := .nothing }

/-- The grammar of looking words up. -/
def lookup : Grammar := { options := ["dictionary"], files := 0, trailing := .words }

/-- Whether the next argument may start with a hyphen. -/
def isLoose (grammar : Grammar) (arguments : List String) : Bool :=
  grammar.trailing = .values && grammar.files ≤ arguments.length

/-- Whether no option can follow. -/
def isClosed (grammar : Grammar) (arguments : List String) : Bool :=
  grammar.trailing = .values && grammar.files < arguments.length

/-- What an argument is behind some others. -/
def role (grammar : Grammar) (arguments : List String) (argument : String) : Role :=
  let loose := grammar.isLoose arguments
  match Shape.ofArgument argument with
  | .plain => .plain
  | .ending => .ending
  | .dashed =>
    if asksForHelp loose argument then .help else if loose then .plain else .unknown
  | .option name value =>
    if grammar.options.contains name then .option name value
    -- Help takes no value.
    else if name = "help" then if value.isNone then .help else .unknown
    else if loose then .plain
    else .unknown

/-- Add an argument to those that have been found. -/
def take (grammar : Grammar) (arguments : List String) (argument : String) :
    Except Usage (List String) :=
  if arguments.length < grammar.files then do return arguments ++ [← fileName argument]
  else if grammar.trailing = .nothing then .error .wrong
  else .ok (arguments ++ [argument])

/-- Tell the options of an action from its other arguments.  Both are continued from what
    has been found. -/
def sort (grammar : Grammar) (arguments : List String) (settings : Settings) :
    List String → Except Usage (List String × Settings)
  | [] => .ok (arguments, settings)
  | argument :: rest =>
    if grammar.isClosed arguments then .ok (arguments ++ argument :: rest, settings)
    else
      match grammar.role arguments argument with
      | .plain => do grammar.sort (← grammar.take arguments argument) settings rest
      -- Only the first `--` is dropped, and nothing after it is an option.
      | .ending => do return (← rest.foldlM grammar.take arguments, settings)
      | .help => .error .help
      | .unknown => .error .wrong
      | .option name (some value) => do
        grammar.sort arguments (← settings.set name value) rest
      | .option name none =>
        match rest with
        | [] => .error .wrong
        | value :: rest =>
          -- A value that would be understood as something else has to follow an equals sign.
          if grammar.role arguments value = .plain then do
            grammar.sort arguments (← settings.set name value) rest
          else .error .wrong

end Grammar

namespace Action

/-- The file that a trace is written to if none is named. -/
def defaultTraceFile : String := "haifu_execution_log.txt"

/-- The file that an option names, or else the environment. -/
def fileSetting (given fallback : Option String) : Except Usage (Option String) :=
  (given <|> fallback).mapM fileName

/-- The action of a name, with its options. -/
def ofName (environment : Environment) (name : String) (rest : List String) :
    Except Usage (Action × Settings) :=
  match name with
  | "run" => do
    match ← Grammar.run.sort [] {} rest with
    | ([], _) => .error .wrong
    | (program :: values, settings) =>
      let traceFile ← fileSetting settings.traceFile environment.traceFile
      return (.run {
        program, values, seed := settings.seed
        trace := settings.trace.getD .off
        traceFile := traceFile.getD defaultTraceFile }, settings)
  | "tokens" => do
    match ← Grammar.tokens.sort [] {} rest with
    | ([program], settings) => return (.tokens program, settings)
    | _ => .error .wrong
  | "lookup" => do
    match ← Grammar.lookup.sort [] {} rest with
    | ([], _) => .error .wrong
    | (words, settings) => return (.lookup words, settings)
  -- Help on an action, or on help itself.
  | "help" =>
    match rest with
    | [] => .error .help
    | [topic] =>
      .error (if ["run", "tokens", "lookup", "help"].contains topic then .help else .wrong)
    | _ => .error .wrong
  | _ => .error .wrong

end Action

/-- What a command line begins with. -/
structure Leading where
  settings : Settings
  /-- A dictionary that has not been looked at yet. -/
  waiting : Option String
  /-- The name of the action. -/
  name : String
  /-- What follows it. -/
  rest : List String

namespace Leading

/-- The grammar of what comes before the name of an action. -/
def grammar : Grammar := { options := ["dictionary"], files := 0, trailing := .nothing }

/-- Add a dictionary that has not been looked at yet. -/
def settle (settings : Settings) (waiting : Option String) : Except Usage Settings :=
  match waiting with
  | none => .ok settings
  | some value => settings.set "dictionary" value

/-- Read a command line up to the name of its action.  A value that is an argument of its
    own is looked at together with the next argument, unless that is the name. -/
def ofArguments (settings : Settings) (waiting : Option String) :
    List String → Except Usage Leading
  | [] => .error .wrong
  | argument :: rest =>
    match grammar.role [] argument with
    | .plain => .ok { settings, waiting, name := argument, rest }
    | .option name (some value) => do
      ofArguments (← (← settle settings waiting).set name value) none rest
    | .option _ none =>
      match rest with
      | [] => .error .wrong
      | value :: rest =>
        if grammar.role [] value = .plain then do
          ofArguments (← settle settings waiting) (some value) rest
        else .error .wrong
    | .help => do
      let _ ← settle settings waiting
      .error .help
    | .ending | .unknown => .error .wrong

end Leading

namespace Invocation

/-- What a command line asks for.  Of two dictionaries the one named after the action
    counts.  A setting of the environment that is left empty is an error unless it is not
    needed anywhere. -/
def ofArguments (environment : Environment) (arguments : List String) :
    Except Usage Invocation := do
  let leading ← Leading.ofArguments {} none arguments
  let (action, after) ← Action.ofName environment leading.name leading.rest
  let before ← Leading.settle leading.settings leading.waiting
  let outer ← Action.fileSetting before.dictionary environment.dictionary
  let inner ← Action.fileSetting after.dictionary environment.dictionary
  let dictionary := if after.dictionary.isSome then inner else outer
  return { dictionary, action }

end Invocation

end Verse
