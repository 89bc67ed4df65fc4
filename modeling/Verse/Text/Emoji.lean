import Verse.Text.EmojiTable
import Verse.Text.Ligature

/-!
# Emoji sequences

Several characters can make one emoji, which takes two columns: a person and a skin tone, two
letters of a flag, a flag and the tags of a region, or whole emoji with joiners between them.
As with ligatures a text is read from its end.

* `Emoji.ofChar?`   the characters that an emoji can end with
* `Emoji.join?`     what a character in front of it adds
-/

namespace Verse.Text

/-- A part of an emoji that a text begins with. -/
inductive Emoji where
  /-- An emoji with nothing missing. -/
  | whole
  /-- A skin tone. -/
  | modifier
  /-- A letter of a flag. -/
  | letter
  /-- Several letters of flags. -/
  | letters
  /-- A joiner and an emoji behind it, so that the next emoji in front takes no column. -/
  | joined
  /-- The frame of a key, and such a joiner. -/
  | joinedKey
  /-- A letter of a flag, and such a joiner. -/
  | joinedLetter
  /-- An even number of letters of flags, and such a joiner. -/
  | joinedEven
  /-- An odd number of letters of flags, three or more, and such a joiner. -/
  | joinedOdd
  /-- So many letters of a region's tag with its end, and such a joiner. -/
  | tagLetters (count : Nat)
  /-- So many digits in front of those. -/
  | tagDigits (count : Nat)
deriving DecidableEq

namespace Emoji

/-- Whether a character is a letter of a flag. -/
def isLetter (c : Char) : Bool := 0x1f1e6 ≤ c.toNat && c.toNat ≤ 0x1f1ff

/-- Whether a character is a skin tone. -/
def isModifier (c : Char) : Bool := 0x1f3fb ≤ c.toNat && c.toNat ≤ 0x1f3ff

/-- Whether a character is a letter of a tag. -/
def isTagLetter (c : Char) : Bool := 0xe0061 ≤ c.toNat && c.toNat ≤ 0xe007a

/-- Whether a character is a digit of a tag. -/
def isTagDigit (c : Char) : Bool := 0xe0030 ≤ c.toNat && c.toNat ≤ 0xe0039

/-- Whether a character is the flag that tags belong to. -/
def isTaggedFlag (c : Char) : Bool := c.toNat = 0x1f3f4

/-- What a text begins with whose first character is this one. -/
def ofChar? (c : Char) : Option Emoji :=
  if isLetter c then some letter
  else if isModifier c then some modifier
  else if inRanges emojiRanges c then some whole
  else none

/-- The columns that a character adds to a text in front of which it is put, and what the
    text begins with then, if the character takes part in the emoji. -/
def join? (c : Char) : Emoji → Option (Int × Emoji)
  | whole => if c = joiner then some (0, joined) else none
  | modifier =>
    if inRanges modifierBaseRanges c then some (0, whole)
    else if c = joiner then some (0, joined)
    else none
  | letter => if isLetter c then some (1, letters) else none
  | letters =>
    if isLetter c then some (1, letters) else if c = joiner then some (0, joined) else none
  | joined =>
    if c = '\u20e3' then some (0, joinedKey)
    else if isLetter c then some (1, joinedLetter)
    else if isModifier c then some (0, modifier)
    else if c.toNat = 0xe007f then some (0, tagLetters 0)
    else if inRanges emojiRanges c then some (0, whole)
    else none
  | joinedKey => none
  -- A single letter is as wide as half a flag, and only a pair of them can be joined.
  | joinedLetter => if isLetter c then some (-1, joinedEven) else none
  | joinedEven =>
    if isLetter c then some (3, joinedOdd) else if c = joiner then some (0, joined) else none
  | joinedOdd =>
    if isLetter c then some (-1, joinedEven) else if c = joiner then some (0, joined) else none
  | tagLetters count =>
    if isTagLetter c && count < 6 then some (0, tagLetters (count + 1))
    else if isTagDigit c && count ≤ 4 then some (0, tagDigits 1)
    else if isTaggedFlag c && 3 ≤ count then some (0, whole)
    else none
  | tagDigits count =>
    if isTagDigit c && count < 3 then some (0, tagDigits (count + 1))
    else if isTaggedFlag c && count = 3 then some (0, whole)
    else none

/-- Whether a variation selector for an emoji in front leaves the emoji incomplete, so that
    the character in front of both belongs to it. -/
def passesSelector : Emoji → Bool
  | joined | joinedKey => true
  | _ => false

end Emoji

end Verse.Text
