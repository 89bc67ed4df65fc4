import Verse.Text.CharWidth

/-!
# Ligatures

In some scripts a letter is drawn in one piece with the letter behind it, and the two take
fewer columns than they do apart.  A text is read from its end, so what is known is what the
text behind a letter begins with.  Between the letters of most ligatures there may be a
joiner, and some are only formed if there is one.

* `Ligature.ofChar?`   the letters that a ligature can end with
* `Ligature.join?`     what a letter in front of it adds
-/

namespace Verse.Text

/-- The zero-width joiner. -/
def joiner : Char := '\u200d'

/-- A part of a ligature that a text begins with.  Where a joiner counts, `joined` says
    whether the text begins with one. -/
inductive Ligature where
  /-- An Arabic alef. -/
  | alef
  /-- A Hebrew lamed. -/
  | lamed (joined : Bool)
  /-- A letter of Khmer that can be written below another. -/
  | khmerLetter
  /-- A Buginese ya. -/
  | ya (joined : Bool)
  /-- A Buginese vowel i joined to a ya. -/
  | vowelAndYa
  /-- A consonant of Tifinagh. -/
  | tifinagh (joined : Bool)
  /-- A consonant of Tifinagh with the consonant joiner of that script. -/
  | joinerAndTifinagh
  /-- A tone letter of Lisu that can be the second of two. -/
  | lisuTone
  /-- An Old Turkic i. -/
  | turkicI (joined : Bool)
  /-- The vowel sign e of Kirat Rai. -/
  | kiratE
  /-- The vowel sign ai of Kirat Rai, which is two signs e. -/
  | kiratAi
deriving DecidableEq

namespace Ligature

/-- The letters that are an Arabic alef. -/
def alefRanges : List (Nat × Nat) :=
  [(0x622, 0x623), (0x625, 0x625), (0x627, 0x627), (0x671, 0x673), (0x675, 0x675),
   (0x773, 0x774), (0x870, 0x882)]

/-- The letters that are an Arabic lam. -/
def lamRanges : List (Nat × Nat) :=
  [(0x644, 0x644), (0x6b5, 0x6b8), (0x76a, 0x76a), (0x8a6, 0x8a6), (0x8c7, 0x8c7)]

/-- The letters of Khmer that can be written below another. -/
def khmerRanges : List (Nat × Nat) :=
  [(0x1780, 0x1782), (0x1784, 0x1787), (0x1789, 0x178c), (0x178e, 0x1793), (0x1795, 0x1798),
   (0x179b, 0x179d), (0x17a0, 0x17a0), (0x17a2, 0x17a2), (0x17a7, 0x17a7), (0x17ab, 0x17ac),
   (0x17af, 0x17af)]

/-- The consonants of Tifinagh. -/
def tifinaghRanges : List (Nat × Nat) :=
  [(0x2d31, 0x2d65), (0x2d6f, 0x2d6f)]

/-- What a text begins with whose first character is this one. -/
def ofChar? (c : Char) : Option Ligature :=
  if inRanges alefRanges c then some .alef
  else if c = '\u05dc' then some (.lamed false)
  else if inRanges khmerRanges c then some .khmerLetter
  else if c = '\u1a10' then some (.ya false)
  else if inRanges tifinaghRanges c then some (.tifinagh false)
  else if c = '\ua4fc' || c = '\ua4fd' then some .lisuTone
  else if c.toNat = 0x10c03 then some (.turkicI false)
  else if c.toNat = 0x16d67 then some .kiratE
  else if c.toNat = 0x16d68 then some .kiratAi
  else none

/-- Put a joiner in front. -/
def addJoiner : Ligature → Ligature
  | lamed _ => lamed true
  | ya _ => ya true
  | tifinagh _ => tifinagh true
  | turkicI _ => turkicI true
  | ligature => ligature

/-- Whether marks that are not drawn may stand in front without any effect. -/
def passesMarks : Ligature → Bool
  | alef | kiratE | kiratAi => false
  | _ => true

/-- Whether a variation selector in front leaves the ligature possible. -/
def passesSelectors : Ligature → Bool
  | kiratE | kiratAi => false
  | _ => true

/-- The columns that a character adds to a text in front of which it is put, and what the
    text begins with then, if the character takes part in a ligature. -/
def join? (c : Char) : Ligature → Option (Int × Option Ligature)
  | alef =>
    if inRanges lamRanges c then some (0, none)
    -- Marks on a lam stand between it and the alef.
    else if inRanges zeroWidthRanges c && !inRanges barrierRanges c then some (0, some alef)
    else none
  | lamed true => if c = '\u05d0' then some (0, none) else none
  | khmerLetter =>
    -- The sign makes the letter disappear below the one before.
    if c = '\u17d2' then some (-1, none) else none
  | ya true => if c = '\u1a17' then some (0, some vowelAndYa) else none
  | vowelAndYa => if c = '\u1a15' then some (0, none) else none
  | tifinagh joined =>
    if c = '\u2d7f' then some (1, some joinerAndTifinagh)
    else if joined && inRanges tifinaghRanges c then some (0, none)
    else none
  | joinerAndTifinagh => if inRanges tifinaghRanges c then some (-1, none) else none
  | lisuTone => if 0xa4f8 ≤ c.toNat && c.toNat ≤ 0xa4fb then some (0, none) else none
  | turkicI true => if c.toNat = 0x10c32 then some (0, none) else none
  | kiratE =>
    if c.toNat = 0x16d63 then some (0, none)
    else if c.toNat = 0x16d67 then some (0, some kiratAi)
    else if c.toNat = 0x16d68 then some (1, some kiratE)
    else if c.toNat = 0x16d69 then some (0, none)
    else none
  | kiratAi => if c.toNat = 0x16d63 then some (0, none) else none
  | _ => none

end Ligature

end Verse.Text
