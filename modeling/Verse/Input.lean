import Verse.Numeric.Reading

/-!
# The program's input

The input of a program is one line of text.  Each reading takes a number from it, an
optional sign followed by digits and an optional fractional part, or else a single
character, whose code is the value.  Spaces and tabs between values are skipped; the input
is exhausted at the end of its line.

A line may still have to be fetched from a stream of bytes.  Only the first line of a stream
is ever looked at, and only when a value is first asked for.
-/

namespace Verse

/-- A value read from the input, with the text that it was read from. -/
structure InputEvent where
  text : String
  value : Float
deriving DecidableEq

/-- A decimal numeral, taken apart. -/
structure Numeral where
  sign : Option Char
  whole : List Char
  fraction : List Char
deriving DecidableEq

/-- The input of a program. -/
inductive Input where
  /-- A stream of bytes that has not been looked at yet. -/
  | unread (bytes : List UInt8)
  /-- The rest of a text. -/
  | text (rest : List Char)
deriving DecidableEq

namespace Numeral

/-- The characters of a numeral. -/
def chars (numeral : Numeral) : List Char :=
  numeral.sign.toList ++ numeral.whole ++
    if numeral.fraction.isEmpty then [] else '.' :: numeral.fraction

/-- The number that a numeral stands for. -/
def value (numeral : Numeral) : Float :=
  Numeric.ofNumeral (numeral.sign == some '-') numeral.whole numeral.fraction

/-- The sign at the start of a text. -/
def sign? : List Char → Option Char
  | '+' :: _ => some '+'
  | '-' :: _ => some '-'
  | _ => none

/-- The digits after a decimal point at the start of a text. -/
def fractionOf : List Char → List Char
  | '.' :: rest => rest.takeWhile Char.isDigit
  | _ => []

/-- The longest numeral at the start of a text, if one is there. -/
def read? (text : List Char) : Option Numeral :=
  let sign := sign? text
  let unsigned := text.drop sign.toList.length
  let whole := unsigned.takeWhile Char.isDigit
  if whole.isEmpty then none
  else some { sign, whole, fraction := fractionOf (unsigned.dropWhile Char.isDigit) }

end Numeral

namespace Input

/-- No input at all. -/
def empty : Input := .text []

/-- Input that is known beforehand. -/
def ofText (text : String) : Input := .text text.toList

/-- The first line of a stream, without its line feed. -/
def firstLine (bytes : List UInt8) : List UInt8 :=
  bytes.takeWhile (· != 10)

/-- The text of the first line of a stream, if it is valid UTF-8. -/
def decodeLine? (bytes : List UInt8) : Option String :=
  String.fromUTF8? (ByteArray.mk (firstLine bytes).toArray)

/-- Whether fetching the line fails. -/
def isGarbled : Input → Bool
  | .unread bytes => (decodeLine? bytes).isNone
  | .text _ => false

/-- The characters that can still be read.  A garbled line counts as empty. -/
def rest : Input → List Char
  | .unread bytes => ((decodeLine? bytes).getD "").toList
  | .text rest => rest

/-- Whether a character only separates values. -/
def isGap (c : Char) : Bool :=
  c == ' ' || c == '\t'

/-- The characters that can still be read, from the next value on. -/
def pending (input : Input) : List Char :=
  input.rest.dropWhile isGap

/-- Whether no value starts at the start of a text. -/
def isEnd : List Char → Bool
  | [] => true
  | c :: _ => c == '\n' || c == '\r'

/-- Whether no value is left. -/
def isExhausted (input : Input) : Bool :=
  isEnd input.pending

/-- The input once it is known whether a value is left: its line fetched, the gap before the
    next value skipped. -/
def advance (input : Input) : Input :=
  .text input.pending

/-- The value at the start of a text, and the text after it. -/
def nextEvent : List Char → Option (InputEvent × List Char)
  | [] => none
  | c :: rest =>
    match Numeral.read? (c :: rest) with
    | some numeral =>
      some (⟨String.ofList numeral.chars, numeral.value⟩, (c :: rest).drop numeral.chars.length)
    | none => some (⟨String.singleton c, Float.ofNat c.toNat⟩, rest)

/-- Read the next value, unless the input is exhausted. -/
def read (input : Input) : Option InputEvent × Input :=
  if input.isExhausted then (none, input.advance)
  else
    match nextEvent input.pending with
    | none => (none, input.advance)
    | some (event, rest) => (some event, .text rest)

end Input

end Verse
