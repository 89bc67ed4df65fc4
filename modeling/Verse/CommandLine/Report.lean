import Verse.Diagnostic
import Verse.Lexicon.Format
import Verse.Sink

/-!
# Failure reports

When a file that a command needs cannot be used, the command fails.  The report says what it
was doing and why that could not be done.
-/

namespace Verse

/-- Why a file cannot be used. -/
inductive FileFault where
  /-- There is no such file or directory. -/
  | missing
  /-- The file is not text. -/
  | garbled
  /-- Some other reason, in the words of the system. -/
  | other (reason : String)
deriving DecidableEq

/-- The text of a fault. -/
def FileFault.message : FileFault → String
  | .missing => "No such file or directory (os error 2)"
  | .garbled => "stream did not contain valid UTF-8"
  | .other reason => reason

/-- Why a command fails. -/
inductive Failure where
  | unreadDictionary (file : String) (fault : FileFault)
  | badDictionary (file : String) (fault : LexiconFault)
  | unreadProgram (file : String) (fault : FileFault)
  | badProgram (file : String) (fault : ProgramFault)
  | noTrace (file : String) (fault : FileFault)
  /-- A run was asked for without a program. -/
  | noProgram
deriving DecidableEq

namespace Failure

/-- What could not be done. -/
def context : Failure → String
  | .unreadDictionary file _ | .badDictionary file _ => "reading dictionary " ++ file
  | .unreadProgram file _ | .badProgram file _ => "reading program " ++ file
  | .noTrace file _ => "creating trace file " ++ file
  | .noProgram => "no program has been loaded"

/-- Why it could not be done, the nearest cause first. -/
def causes : Failure → List String
  | .unreadDictionary _ fault => [ioReport fault.message, fault.message]
  | .badDictionary _ fault => [fault.message]
  | .unreadProgram _ fault => [fault.message]
  | .badProgram _ fault => [fault.message]
  | .noTrace _ fault => [fault.message]
  | .noProgram => []

/-- The lines that give some causes.  Several causes are numbered. -/
def causeLines : List String → List String
  | [] => []
  | [cause] => ["", "Caused by:", "    " ++ cause]
  | causes => "" :: "Caused by:" ::
    causes.mapIdx fun i cause => "    " ++ toString i ++ ": " ++ cause

/-- The report of a failure. -/
def report (failure : Failure) : String :=
  String.join ((("Error: " ++ failure.context) :: causeLines failure.causes).map (· ++ "\n"))

end Failure

end Verse
