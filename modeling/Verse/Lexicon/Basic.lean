import Std.Data.ExtTreeMap
import Verse.Command
import Verse.Number.Words
import Verse.Text.Case

/-!
# The lexicon

What is known about English words beyond their spelling: a base word, so that "rivers" and
"river" name the same variable, an element, and syllable counts.  A lexicon is a finite map
from words to entries, in the order of the words.

* `Lexicon.canonical`     the name under which a word's variable is kept
* `Lexicon.element`       the element that a word starts with
* `canonical_eq`, `element_eq`  both read off the entry of the word
* `get?_put`, `get?_erase`  what a change does to the entry of each word
* `ext_get?`              a lexicon is known by its entries
-/

namespace Verse

/-- The base word of a word. -/
inductive BaseWord where
  /-- The word has none. -/
  | missing
  /-- The word is its own base word. -/
  | itself
  /-- Another word. -/
  | word (base : String)
deriving DecidableEq

/-- The other word that a base word is, if it is one. -/
def BaseWord.word? : BaseWord → Option String
  | .word base => some base
  | .missing | .itself => none

/-- What the lexicon knows about a word. -/
structure Entry where
  base : BaseWord
  element : Option Element
  syllables : List UInt32
deriving DecidableEq

/-- The known words with their entries. -/
structure Lexicon where
  entries : Std.ExtTreeMap String Entry := ∅

namespace Lexicon

/-- The lexicon that knows no word. -/
def empty : Lexicon := {}

instance : Inhabited Lexicon := ⟨empty⟩

/-- Whether a word's meaning is fixed: it spells a command or a number. -/
def isFixed (word : String) : Bool :=
  (Command.ofWord? word).isSome || Number.isNumberWord word

/-- Store an entry under a word as it stands, in place of an earlier one. -/
def put (lexicon : Lexicon) (word : String) (entry : Entry) : Lexicon :=
  ⟨lexicon.entries.insert word entry⟩

/-- Store an entry under the lower-case form of a word.  Words with a fixed meaning are
    refused. -/
def insert? (lexicon : Lexicon) (word : String) (entry : Entry) : Option Lexicon :=
  let word := Text.lower word
  if isFixed word then none else some (lexicon.put word entry)

/-- The entry of a word that is already in lower case. -/
def get? (lexicon : Lexicon) (word : String) : Option Entry :=
  lexicon.entries[word]?

/-- Forget the lower-case form of a word. -/
def erase (lexicon : Lexicon) (word : String) : Lexicon :=
  ⟨lexicon.entries.erase (Text.lower word)⟩

/-- The entry that `erase` takes out. -/
def erased? (lexicon : Lexicon) (word : String) : Option Entry :=
  lexicon.get? (Text.lower word)

/-- How many words are known. -/
def size (lexicon : Lexicon) : Nat :=
  lexicon.entries.size

/-- The name under which a word's variable is kept: its base word, or the word itself. -/
def canonical (lexicon : Lexicon) (word : String) : String :=
  match lexicon.get? word with
  | some { base := .word base, .. } => base
  | _ => word

/-- The element that a variable spelled by the word starts with. -/
def element (lexicon : Lexicon) (word : String) : Element :=
  match lexicon.get? word with
  | some { element := some element, .. } => element
  | _ => .earth

theorem canonical_eq (lexicon : Lexicon) (word : String) :
    lexicon.canonical word =
      ((lexicon.get? word).bind fun entry => entry.base.word?).getD word := by
  rw [canonical]
  cases lexicon.get? word with
  | none => rfl
  | some entry =>
    obtain ⟨base, element, syllables⟩ := entry
    cases base <;> rfl

theorem element_eq (lexicon : Lexicon) (word : String) :
    lexicon.element word = ((lexicon.get? word).bind Entry.element).getD .earth := by
  rw [element]
  cases lexicon.get? word with
  | none => rfl
  | some entry =>
    obtain ⟨base, element, syllables⟩ := entry
    cases element <;> rfl

/-! ## A lexicon as a map -/

/-- Two lexicons with the same entries are the same lexicon. -/
theorem ext_get? {a b : Lexicon} (h : ∀ word, a.get? word = b.get? word) : a = b := by
  cases a; cases b
  simpa [get?] using Std.ExtTreeMap.ext_getElem? h

@[simp] theorem get?_empty (word : String) : empty.get? word = none := by
  simp [empty, get?]

theorem get?_put (lexicon : Lexicon) (word other : String) (entry : Entry) :
    (lexicon.put word entry).get? other =
      if word = other then some entry else lexicon.get? other := by
  simp [put, get?, Std.ExtTreeMap.getElem?_insert]

theorem get?_erase (lexicon : Lexicon) (word other : String) :
    (lexicon.erase word).get? other =
      if Text.lower word = other then none else lexicon.get? other := by
  simp [erase, get?, Std.ExtTreeMap.getElem?_erase]

end Lexicon

end Verse
