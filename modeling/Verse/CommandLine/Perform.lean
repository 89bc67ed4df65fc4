import Verse.CommandLine.Arguments
import Verse.CommandLine.Report
import Verse.Engine

/-!
# Carrying out a command line

What a command does is a function of what it finds: its arguments, the files, the environment
and its standard input.  It is a sequence of jobs, each of which adds to what has been done and
may fail: the dictionary is read before the program, the program before the trace file is
created, and the trace file is created before the program is started.

* `perform`   carry out a command line
-/

namespace Verse

/-- Whether a file is there, as far as reading it can tell. -/
def isFound : Except FileFault (List UInt8) → Bool
  | .error .missing => false
  | _ => true

/-- What a command finds around it. -/
structure World where
  /-- The contents of a file. -/
  read : String → Except FileFault (List UInt8)
  /-- Whether there is seen to be something of a name.  It need not be readable, and what
      cannot be reached is not seen, for whatever reason. -/
  present : String → Bool := fun file => isFound (read file)
  /-- Why a file cannot be written, if so. -/
  barred : String → Option FileFault
  environment : Environment := {}
  /-- The bytes of the standard input. -/
  stdin : List UInt8 := []
  /-- The seed of a run that is given none. -/
  entropy : UInt64 := 0
  /-- What receives the texts that are printed. -/
  output : Sink := {}
  /-- What receives the trace of a run. -/
  traceSink : Sink := {}

/-- Something that a command does and that shows from outside. -/
inductive Deed where
  /-- A file is looked at. -/
  | looked (file : String)
  /-- A file is created, or emptied if there is one already. -/
  | created (file : String)
  /-- A text is written to the file created last. -/
  | wrote (text : String)
  | printed (text : String)
  | logged (entry : LogEntry)
  /-- The standard input is looked at. -/
  | listened
deriving DecidableEq

namespace Deed

/-- The text that is printed. -/
def printed? : Deed → Option String
  | .printed text => some text
  | _ => none

/-- The line that is logged. -/
def logged? : Deed → Option LogEntry
  | .logged entry => some entry
  | _ => none

/-- The file that is created. -/
def created? : Deed → Option String
  | .created file => some file
  | _ => none

/-- The text that is written to a file. -/
def wrote? : Deed → Option String
  | .wrote text => some text
  | _ => none

end Deed

/-- A part of a command.  If it fails, what it has done by then stays done.  There is no result
    if the fuel of a run is not enough. -/
abbrev Job := ExceptT Failure (StateT (List Deed) Option)

/-- Do some things. -/
def Job.note (deeds : List Deed) : Job Unit :=
  modify (· ++ deeds)

namespace World

/-- The text of a file. -/
def readText (world : World) (file : String) : Except FileFault String :=
  match world.read file with
  | .error fault => .error fault
  | .ok bytes =>
    match String.fromUTF8? (ByteArray.mk bytes.toArray) with
    | none => .error .garbled
    | some text => .ok text

/-- The dictionary that is read, if it exists, when none is named. -/
def defaultDictionary : String := "haifu_words.txt"

/-- The lexicon of a dictionary file. -/
def readLexicon (world : World) (file : String) : Except Failure Lexicon :=
  match world.readText file with
  | .error fault => .error (.unreadDictionary file fault)
  | .ok text =>
    match Lexicon.ofText text with
    | .error fault => .error (.badDictionary file fault)
    | .ok lexicon => .ok lexicon

/-- The lexicon of a named dictionary, or else of the default one, or else an empty one. -/
def lexicon (world : World) (dictionary : Option String) : Except Failure Lexicon :=
  match dictionary with
  | some file => world.readLexicon file
  | none =>
    if world.present defaultDictionary then world.readLexicon defaultDictionary else .ok .empty

end World

/-- What the log keeps of reading a program text. -/
def readingLog (text : String) (result : Except ProgramFault (List Token)) : List LogEntry :=
  (Token.straysOf text).map .strayDigit ++
    match result with
    | .ok _ => []
    | .error fault => fault.all.map .diagnostic

/-- Read the dictionary. -/
def consult (world : World) (dictionary : Option String) : Job Lexicon := do
  Job.note [.looked (dictionary.getD World.defaultDictionary)]
  MonadExcept.ofExcept (world.lexicon dictionary)

/-- Read the tokens of a program file. -/
def readProgram (world : World) (lexicon : Lexicon) (program : String) : Job (List Token) := do
  Job.note [.looked program]
  match world.readText program with
  | .error fault => throw (.unreadProgram program fault)
  | .ok text =>
    let result := Token.ofText lexicon text
    Job.note ((readingLog text result).map .logged)
    match result with
    | .error fault => throw (.badProgram program fault)
    | .ok tokens => return tokens

/-- The input of a run: its values joined by spaces, or else the standard input. -/
def RunOptions.input (options : RunOptions) (world : World) : Input :=
  if options.values.isEmpty then .unread world.stdin
  else .ofText (" ".intercalate options.values)

/-- Whether an input has been looked at. -/
def Input.isTouched : Input → Bool
  | .unread _ => false
  | .text _ => true

/-- The engine of a run with a program loaded. -/
def RunOptions.engine (options : RunOptions) (world : World) (lexicon : Lexicon)
    (tokens : List Token) : Engine :=
  let engine := Engine.ofSeed (options.seed.getD world.entropy)
  let engine := { engine with mode := options.trace, output := world.output }
  let engine := (engine.load lexicon tokens).setInput (options.input world)
  if options.trace.isOn then engine.setTraceSink world.traceSink else engine

/-- What the log says in the end about a run. -/
def Outcome.remarks (outcome : Outcome) : List LogEntry :=
  if outcome.reason = .fatal then [.stoppedEarly outcome.steps] else []

/-- What shows of a run that has ended. -/
def RunReport.deeds (report : RunReport) (output : Sink) : List Deed :=
  [.printed output.text] ++ (report.trace.map fun sink => .wrote sink.text).toList ++
    (report.log ++ report.outcome.remarks).map .logged

/-- What is done in a run that ends.  If it was given values, it leaves the standard input
    alone. -/
def RunOptions.deeds (options : RunOptions) (report : RunReport) (engine : Engine) : List Deed :=
  let listened := options.values.isEmpty && engine.machine.input.isTouched
  (if listened then [.listened] else []) ++ report.deeds engine.output

/-- Create the trace file, if there is to be a trace. -/
def createTrace (world : World) (options : RunOptions) : Job Unit :=
  if options.trace.isOn then
    match world.barred options.traceFile with
    | some fault => throw (.noTrace options.traceFile fault)
    | none => Job.note [.created options.traceFile]
  else return

/-- Run an engine. -/
def runEngine (fuel : Nat) (options : RunOptions) (engine : Engine) : Job Unit :=
  match engine.run fuel with
  | .noProgram => throw .noProgram
  | .unfinished => fun _ => none
  | .finished report engine => Job.note (options.deeds report engine)

/-- What is known about a word. -/
def lookUp (lexicon : Lexicon) (query : String) : String :=
  let word := Text.lower query
  match lexicon.get? word with
  | some entry => word ++ " " ++ entry.text
  | none =>
    word ++ " (unknown) " ++ lexicon.canonical word ++ " " ++ (lexicon.element word).name

/-- Print texts on lines of their own.  The program breaks off at the first one that the output
    refuses. -/
def printLines (output : Sink) : List String → Job (Option SinkFault)
  | [] => return none
  | text :: rest =>
    match output.write (text ++ "\n") with
    | .ok output => do
      Job.note [.printed (text ++ "\n")]
      printLines output rest
    | .error fault => return some fault

/-- Carry out an action.  If the program breaks off, it is for a fault of the output. -/
def Action.carryOut (fuel : Nat) (world : World) (lexicon : Lexicon) :
    Action → Job (Option SinkFault)
  | .run options => do
    let tokens ← readProgram world lexicon options.program
    createTrace world options
    runEngine fuel options (options.engine world lexicon tokens)
    return none
  | .tokens program => do
    let tokens ← readProgram world lexicon program
    printLines world.output (tokens.map Token.display)
  | .lookup words => printLines world.output (words.map (lookUp lexicon))

/-- Carry out what a command line asks for. -/
def Invocation.carryOut (fuel : Nat) (world : World) (invocation : Invocation) :
    Job (Option SinkFault) := do
  let lexicon ← consult world invocation.dictionary
  invocation.action.carryOut fuel world lexicon

/-- How a command ends. -/
inductive Ending where
  | done
  | failed (failure : Failure)
  /-- The program broke off because a line could not be printed. -/
  | panicked (fault : SinkFault)
  | misused (usage : Usage)
deriving DecidableEq

/-- How a command ended, and all that it did. -/
structure Completion where
  ending : Ending
  deeds : List Deed
deriving DecidableEq

/-- The ending that the result of a command amounts to. -/
def Ending.ofResult : Except Failure (Option SinkFault) → Ending
  | .ok none => .done
  | .ok (some fault) => .panicked fault
  | .error failure => .failed failure

/-- How to call the program. -/
def usageText : String :=
  "Run programs written in Haifu, a programming language of haiku\n\n" ++
  "Usage: haifu [--dictionary FILE] run [OPTIONS] PROGRAM [ARGS]...\n" ++
  "       haifu [--dictionary FILE] tokens PROGRAM\n" ++
  "       haifu [--dictionary FILE] lookup WORDS...\n\n" ++
  "Options of run:\n" ++
  "  --trace MODE        Execution trace: off, top (top-level rungs), or all [default: off]\n" ++
  "  --trace-file FILE   Where the trace goes [default: haifu_execution_log.txt]\n" ++
  "  --seed SEED         Seed for the values of few and many\n"

/-- What is done for a command line that asks for no action.  Help that cannot be printed is
    passed over. -/
def Usage.deeds (output : Sink) : Usage → List Deed
  | .help =>
    match output.write usageText with
    | .ok _ => [.printed usageText]
    | .error _ => []
  | .wrong => []

/-- Carry out a command line.  The fuel bounds the run of a program, and there is no
    completion if it is not enough. -/
def perform (fuel : Nat) (world : World) (arguments : List String) : Option Completion :=
  match Invocation.ofArguments world.environment arguments with
  | .error usage => some { ending := .misused usage, deeds := usage.deeds world.output }
  | .ok invocation =>
    ((invocation.carryOut fuel world).run.run []).map fun (result, deeds) =>
      { ending := .ofResult result, deeds }

namespace Completion

/-- The exit code of a command. -/
def exitCode (completion : Completion) : UInt32 :=
  match completion.ending with
  | .done => 0
  | .failed _ => 1
  | .panicked _ => 101
  | .misused .help => 0
  | .misused .wrong => 2

/-- The report of a command that did not succeed. -/
def stderr (completion : Completion) : String :=
  match completion.ending with
  | .failed failure => failure.report
  | .panicked fault => "failed printing to stdout: " ++ fault.message ++ "\n"
  | .misused .wrong => "error: invalid arguments\n\n" ++ usageText
  | _ => ""

/-- What a command prints. -/
def stdout (completion : Completion) : String :=
  String.join (completion.deeds.filterMap Deed.printed?)

/-- The log of a command. -/
def log (completion : Completion) : List LogEntry :=
  completion.deeds.filterMap Deed.logged?

/-- The files that a command creates. -/
def created (completion : Completion) : List String :=
  completion.deeds.filterMap Deed.created?

/-- The file that a command creates, with its contents.  There is at most one. -/
def written (completion : Completion) : Option (String × String) :=
  completion.created.head?.map fun file =>
    (file, String.join (completion.deeds.filterMap Deed.wrote?))

/-- Whether a command looked at the standard input. -/
def listened (completion : Completion) : Bool :=
  completion.deeds.contains .listened

end Completion

end Verse
