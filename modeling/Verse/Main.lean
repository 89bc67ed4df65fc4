import Verse.CommandLine.Perform

/-!
# The program

Collects what a command line needs, carries it out, and shows the result.  The standard
input is only read by a run that has been seen to listen: the command is carried out without
it first.
-/

namespace Verse

/-- More fuel than there is time for. -/
def unboundedFuel : Nat := 1 <<< 62

/-- The fault of a system error. -/
def faultOf : IO.Error → FileFault
  | .noFileOrDirectory .. => .missing
  | error => .other (toString error)

/-- Read a file. -/
def readFile (file : String) : IO (Except FileFault (List UInt8)) := do
  try
    return .ok (← IO.FS.readBinFile file).toList
  catch error => return .error (faultOf error)

/-- The files that a command line makes the program look at. -/
def filesOf (environment : Environment) (arguments : List String) : List String :=
  match Invocation.ofArguments environment arguments with
  | .error _ => []
  | .ok invocation =>
    let dictionary := invocation.dictionary.getD World.defaultDictionary
    match invocation.action with
    | .run options => [dictionary, options.program]
    | .tokens program => [dictionary, program]
    | .lookup _ => [dictionary]

/-- Whether there is something of a name. -/
def isPresent (file : String) : IO Bool := do
  return (← ((← IO.currentDir) / file).pathExists)

/-- Read the files that a command line needs. -/
def gatherWorld (arguments : List String) : IO World := do
  let environment : Environment :=
    { dictionary := ← IO.getEnv "HAIFU_DICTIONARY", traceFile := ← IO.getEnv "HAIFU_TRACE_FILE" }
  let contents ← (filesOf environment arguments).mapM fun file => do
    return (file, ← readFile file)
  let hasDefault ← isPresent World.defaultDictionary
  let entropy := (← IO.getRandomBytes 8).toList.foldl (fun n byte => 256 * n + byte.toNat) 0
  return {
    read := fun file => (contents.lookup file).getD (.error .missing)
    present := fun file => file == World.defaultDictionary && hasDefault
    barred := fun _ => none
    environment
    entropy := UInt64.ofNat entropy }

/-- The bytes of a stream up to its first line feed, `before` being those already read. -/
partial def readLine (stream : IO.FS.Stream) (before : List UInt8) : IO (List UInt8) := do
  match (← stream.read 1).toList with
  | [] => return before.reverse
  | byte :: _ => if byte = 10 then return before.reverse else readLine stream (byte :: before)

/-- Carry out a command, reading the standard input if the command listens. -/
def attempt (world : World) (arguments : List String) : IO (World × Option Completion) := do
  let completion := perform unboundedFuel world arguments
  if (completion.map Completion.listened).getD false then
    let world := { world with stdin := ← readLine (← IO.getStdin) [] }
    return (world, perform unboundedFuel world arguments)
  else return (world, completion)

/-- Write the file that a completed command leaves behind.  If it cannot be written, the
    command fails. -/
def settle (world : World) (arguments : List String) (completion : Completion) :
    IO Completion := do
  match completion.written with
  | none => return completion
  | some (file, text) =>
    try
      IO.FS.writeFile file text
      return completion
    catch error =>
      let barred := { world with barred := fun _ => some (faultOf error) }
      return (perform unboundedFuel barred arguments).getD completion

/-- Print what a completed command has printed.  If that fails, the command is one whose output
    takes nothing. -/
def deliver (world : World) (arguments : List String) (completion : Completion) :
    IO Completion := do
  try
    let stdout ← IO.getStdout
    stdout.putStr completion.stdout
    stdout.flush
    return completion
  catch _ =>
    let full := { world with output := { room := some 0 } }
    return (perform unboundedFuel full arguments).getD completion

end Verse

/-- Carry out the command line. -/
def main (arguments : List String) : IO UInt32 := do
  let world ← Verse.gatherWorld arguments
  let (world, completion) ← Verse.attempt world arguments
  match completion with
  | none => return 1
  | some completion =>
    let completion ← Verse.settle world arguments completion
    let completion ← Verse.deliver world arguments completion
    for entry in completion.log do
      IO.eprintln entry.text
    IO.eprint completion.stderr
    return completion.exitCode
