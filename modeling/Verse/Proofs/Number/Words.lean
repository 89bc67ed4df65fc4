import Mathlib
import Verse.Command
import Verse.Number.Words

/-!
# The table of number words

What can be read off the table once and for all, in any letter case: number words consist of
letters, each of them spells one number only, and none of them is the word of a command.
-/

namespace Verse.Number

/-- A word that spells a number, in any letter case. -/
def Spells (word : String) (value : Nat) : Prop :=
  ∃ entry ∈ spellings, entry.1 = value ∧ word.toLower ∈ entry.2

instance (word : String) (value : Nat) : Decidable (Spells word value) :=
  inferInstanceAs (Decidable (∃ entry ∈ spellings, entry.1 = value ∧ word.toLower ∈ entry.2))

/-- What is true of all words in the table. -/
theorem Spells.of_all (test : Nat → String → Bool)
    (hall : (spellings.all fun entry => entry.2.all (test entry.1)) = true) {word : String}
    {value : Nat} (h : Spells word value) : test value word.toLower = true := by
  obtain ⟨entry, hentry, rfl, hword⟩ := h
  exact List.all_eq_true.mp (List.all_eq_true.mp hall entry hentry) _ hword

/-- No word spells two numbers. -/
theorem Spells.ofWord?_toLower {word : String} {value : Nat} (h : Spells word value) :
    ofWord? word.toLower = some value := by
  have hall : (spellings.all fun entry =>
      entry.2.all fun word => ofWord? word == some entry.1) = true := by
    decide +kernel
  exact eq_of_beq (h.of_all (fun value word => ofWord? word == some value) hall)

/-- No number word is the word of a command. -/
theorem Spells.command_ofWord?_toLower {word : String} {value : Nat} (h : Spells word value) :
    Command.ofWord? word.toLower = none := by
  have hall : (spellings.all fun entry =>
      entry.2.all fun word => (Command.ofWord? word).isNone) = true := by
    decide +kernel
  exact Option.isNone_iff_eq_none.mp (h.of_all (fun _ word => (Command.ofWord? word).isNone) hall)

/-- A word of letters only. -/
def isPlain (word : List Char) : Bool :=
  !word.isEmpty && word.all Char.isAlpha

/-- A plain word has letters, and one at least. -/
theorem isPlain_iff {word : List Char} :
    isPlain word = true ↔ word ≠ [] ∧ ∀ c ∈ word, c.isAlpha = true := by
  simp [isPlain]

/-- Letters stay letters in lower case, and nothing else becomes one. -/
theorem isPlain_map_toLower (word : List Char) : isPlain (word.map Char.toLower) = isPlain word := by
  simp [isPlain, Function.comp_def, Char.isAlpha_toLower_eq_isAlpha]

/-- Number words are plain. -/
theorem Spells.isPlain {word : String} {value : Nat} (h : Spells word value) :
    isPlain word.toList = true := by
  have hall : (spellings.all fun entry =>
      entry.2.all fun word => Number.isPlain word.toList) = true := by
    decide +kernel
  have hlower := h.of_all (fun _ word => Number.isPlain word.toList) hall
  rwa [String.toLower, String.toList_map, isPlain_map_toLower] at hlower

end Verse.Number
