/-!
# Number words

The words that spell a number, cardinals and ordinals alike, with a few by-names such as
"dozen" and "score".
-/

namespace Verse.Number

/-- The numbers that a single word can spell, each with its spellings. -/
def spellings : List (Nat × List String) :=
  [(0, ["no", "none", "nothing", "zero", "zeroth"]),
   (1, ["a", "an", "once", "one", "first"]),
   (2, ["couple", "twice", "two", "second"]),
   (3, ["thrice", "three", "third"]),
   (4, ["four", "fourth"]),
   (5, ["five", "fifth"]),
   (6, ["six", "sixth"]),
   (7, ["seven", "seventh"]),
   (8, ["eight", "eighth"]),
   (9, ["nine", "ninth"]),
   (10, ["decade", "ten", "tenth"]),
   (11, ["eleven", "eleventh"]),
   (12, ["dozen", "twelve", "twelfth"]),
   (13, ["thirteen", "thirteenth"]),
   (14, ["fourteen", "fourteenth"]),
   (15, ["fifteen", "fifteenth"]),
   (16, ["sixteen", "sixteenth"]),
   (17, ["seventeen", "seventeenth"]),
   (18, ["eighteen", "eighteenth"]),
   (19, ["nineteen", "nineteenth"]),
   (20, ["score", "twenty", "twentieth"]),
   (30, ["thirty", "thirtieth"]),
   (40, ["forty", "fortieth"]),
   (50, ["fifty", "fiftieth"]),
   (60, ["sixty", "sixtieth"]),
   (70, ["seventy", "seventieth"]),
   (80, ["eighty", "eightieth"]),
   (90, ["ninety", "ninetieth"]),
   (100, ["century", "centurial", "centuries", "hundred", "hundredth"]),
   (1000, ["millenium", "millenial", "millenia", "milleniums", "thousand", "thousandth"]),
   (1000000, ["million", "millionth"]),
   (1000000000, ["billion", "billionth"])]

/-- The number that a word spells. -/
def ofWord? (word : String) : Option Nat :=
  (spellings.find? fun spelling => spelling.2.contains word).map (·.1)

/-- Whether a word spells a number. -/
def isNumberWord (word : String) : Bool :=
  (ofWord? word).isSome

end Verse.Number
