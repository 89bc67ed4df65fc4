import Verse.Lexicon.Basic
import Verse.Numeric.Reading
import Verse.Text.Split

/-!
# Dictionary text

A dictionary has one entry per line: a word, its base word, its element and its syllable
counts, separated by white space.  A base word of `_` means that the word has none and `.`
that it is its own; an element or a syllable count of `_` is not known.  Blank lines are
skipped, and a word that is given twice keeps its last entry.
-/

namespace Verse

/-- What can be wrong with a line of a dictionary. -/
inductive EntryFault where
  | missingBase
  | missingElement
  | unknownElement (name : String)
  | badSyllables (field : String)
deriving DecidableEq

/-- The text of a fault. -/
def EntryFault.message : EntryFault → String
  | .missingBase => "missing base word"
  | .missingElement => "missing element"
  | .unknownElement name => "unknown element \"" ++ name ++ "\""
  | .badSyllables field => "bad syllable count \"" ++ field ++ "\""

/-- The first faulty line of a dictionary.  Lines count from one. -/
structure LexiconFault where
  line : Nat
  cause : EntryFault
deriving DecidableEq

/-- The text of a fault with its line. -/
def LexiconFault.message (fault : LexiconFault) : String :=
  "malformed dictionary entry on line " ++ toString fault.line ++ ": " ++ fault.cause.message

namespace BaseWord

/-- The written form of a base word. -/
def text : BaseWord → String
  | .missing => "_"
  | .itself => "."
  | .word base => base

/-- The base word of a field. -/
def ofField (field : String) : BaseWord :=
  if field = "_" then .missing
  else if field = "." then .itself
  else .word (Text.lower field)

end BaseWord

namespace Entry

/-- The written form of an entry: base word, element and syllable counts. -/
def text (entry : Entry) : String :=
  let element := (entry.element.map Element.name).getD "_"
  let syllables :=
    if entry.syllables.isEmpty then "_"
    else " ".intercalate (entry.syllables.map fun count => toString count.toNat)
  entry.base.text ++ " " ++ element ++ " " ++ syllables

/-- The element of a field, in any case. -/
def readElement (field : String) : Except EntryFault (Option Element) :=
  if field = "_" then .ok none
  else
    match Element.ofName? (Text.lower field) with
    | some element => .ok (some element)
    | none => .error (.unknownElement field)

/-- The syllable counts of the fields at the end of a line. -/
def readSyllables : List String → Except EntryFault (List UInt32)
  | [] => .ok []
  | field :: rest =>
    if field = "_" then readSyllables rest
    else
      match Numeric.unsigned? UInt32.size field.toList with
      | none => .error (.badSyllables field)
      | some count => (readSyllables rest).map (UInt32.ofNat count :: ·)

/-- The entry of the fields that follow a word. -/
def ofFields : List String → Except EntryFault Entry
  | [] => .error .missingBase
  | [_] => .error .missingElement
  | base :: element :: syllables => do
    let element ← readElement element
    let syllables ← readSyllables syllables
    return { base := BaseWord.ofField base, element, syllables }

end Entry

namespace Lexicon

/-- Add the lines of a dictionary, the first of which has the number `number`. -/
def readLines (lexicon : Lexicon) (number : Nat) : List (List Char) → Except LexiconFault Lexicon
  | [] => .ok lexicon
  | line :: rest =>
    match (Text.fields line).map String.ofList with
    | [] => lexicon.readLines (number + 1) rest
    | word :: fields =>
      match Entry.ofFields fields with
      | .error cause => .error { line := number, cause }
      | .ok entry => (lexicon.put (Text.lower word) entry).readLines (number + 1) rest

/-- Read a dictionary. -/
def ofText (text : String) : Except LexiconFault Lexicon :=
  empty.readLines 1 (Text.lines text.toList)

/-- The lines of the dictionary that holds a lexicon, in the order of the words. -/
def toLines (lexicon : Lexicon) : List String :=
  lexicon.entries.toList.map fun (word, entry) => word ++ " " ++ entry.text ++ "\n"

/-- Write the dictionary that holds a lexicon. -/
def toText (lexicon : Lexicon) : String :=
  String.join lexicon.toLines

end Lexicon

end Verse
