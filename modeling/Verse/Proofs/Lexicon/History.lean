import Mathlib.Data.List.Induction
import Verse.Proofs.Lexicon.Dictionary
import Verse.Proofs.Lexicon.Format

/-!
# What has become of a lexicon

A lexicon starts without words.  Dictionaries are read in its place, entries are offered for words,
and words are forgotten, in any order.  What is known of a word in the end is what the last of the
changes that touch it has stored, in whatever letter case the word was written.

* `Change`, `after`           the changes of a lexicon, and what a list of them leads to
* `get?_after`                what is known of a word in the end
* `after_induction`           what holds after any history
* `lower_eq_of_get?_after`    words are kept in lower case
* `isWritable_after`          what keeps a lexicon writable
* `lookups_need_lower_case`   a word is forgotten in any letter case, and found in lower case only
-/

namespace Verse.Lexicon

/-- A change of a lexicon. -/
inductive Change where
  /-- A dictionary is read in its place. -/
  | read (text : String)
  /-- An entry is offered for a word. -/
  | insert (word : String) (entry : Entry)
  /-- A word is forgotten. -/
  | erase (word : String)

/-- What a change makes of a lexicon.  A dictionary that cannot be read and an entry that is refused
    leave it as it is. -/
def changed (lexicon : Lexicon) : Change → Lexicon
  | .read text => (ofText text).toOption.getD lexicon
  | .insert word entry => (lexicon.insert? word entry).getD lexicon
  | .erase word => lexicon.erase word

/-- What a list of changes leads to, from the lexicon that knows no word. -/
def after (history : List Change) : Lexicon :=
  history.foldl changed empty

namespace Change

/-- A change may store or forget an entry of a word, in any letter case.  A dictionary that can be
    read touches all words. -/
def Touches (word : String) : Change → Prop
  | .read text => ∃ lexicon, ofText text = .ok lexicon
  | .insert other _ => Text.lower other = Text.lower word ∧ isFixed (Text.lower word) = false
  | .erase other => Text.lower other = Text.lower word

/-- A change stores an entry for a word, in any letter case. -/
def Stores (word : String) (entry : Entry) : Change → Prop
  | .read text => (∃ lexicon, ofText text = .ok lexicon) ∧ Gives text word entry
  | .insert other found =>
    (Text.lower other = Text.lower word ∧ isFixed (Text.lower word) = false) ∧ found = entry
  | .erase _ => False

end Change

/-- The entry that was stored last for a word, in any letter case, and has not been forgotten. -/
def Stands (history : List Change) (word : String) (entry : Entry) : Prop :=
  LastOf (Change.Touches word) (Change.Stores word entry) history

variable {lexicon : Lexicon} {word : String} {entry : Entry} {history : List Change}

/-! ## Single changes -/

/-- A dictionary that can be read takes the place of everything. -/
theorem changed_read_of_ok {text : String} {read : Lexicon} (h : ofText text = .ok read) :
    lexicon.changed (.read text) = read := by
  rw [changed, h]
  rfl

/-- A dictionary that cannot be read changes nothing. -/
theorem changed_read_of_error {text : String} {fault : LexiconFault}
    (h : ofText text = .error fault) : lexicon.changed (.read text) = lexicon := by
  rw [changed, h]
  rfl

/-- An entry is stored in lower case, unless the word has a fixed meaning. -/
theorem changed_insert (lexicon : Lexicon) (word : String) (entry : Entry) :
    lexicon.changed (.insert word entry) =
      if isFixed (Text.lower word) then lexicon else lexicon.put (Text.lower word) entry := by
  rw [changed, insert?]
  split <;> rfl

/-- What is known of a word after a change is what the change stores, or what was known before if
    the change does not touch the word. -/
theorem get?_changed (lexicon : Lexicon) (change : Change) (word : String) (entry : Entry) :
    (lexicon.changed change).get? (Text.lower word) = some entry ↔
      change.Stores word entry ∨
        ¬ change.Touches word ∧ lexicon.get? (Text.lower word) = some entry := by
  cases change with
  | read text =>
    cases h : ofText text with
    | error fault =>
      rw [changed_read_of_error h]
      simp [Change.Stores, Change.Touches, h]
    | ok read =>
      rw [changed_read_of_ok h, get?_of_ofText h]
      simp [Change.Stores, Change.Touches, h]
  | insert other found =>
    rw [changed_insert]
    -- Whether the change is for the word decides which side of the statement it is on.
    by_cases hword : Text.lower other = Text.lower word
    · cases hfixed : isFixed (Text.lower word) <;>
        simp [Change.Stores, Change.Touches, hword, hfixed, get?_put]
    · split <;> simp [Change.Stores, Change.Touches, hword, get?_put]
  | erase other =>
    rw [changed, get?_erase]
    by_cases hword : Text.lower other = Text.lower word <;>
      simp [Change.Stores, Change.Touches, hword]

/-! ## Histories -/

/-- No changes lead to the lexicon without words. -/
@[simp] theorem after_nil : after [] = empty := rfl

/-- One more change is made at the end. -/
theorem after_concat (history : List Change) (change : Change) :
    after (history ++ [change]) = (after history).changed change := by
  simp [after]

/-- What is known of a word in the end. -/
theorem get?_after (history : List Change) (word : String) (entry : Entry) :
    (after history).get? (Text.lower word) = some entry ↔ Stands history word entry := by
  -- The induction is on the history from its end: the last change decides, or those before it.
  induction history using List.reverseRecOn with
  | nil => simp [Stands, not_lastOf_nil]
  | append_singleton history change ih =>
    rw [after_concat, get?_changed, ih]
    exact lastOf_concat_iff.symm

/-- What holds of the lexicon without words and of every dictionary that can be read, and is kept
    when an entry is stored or a word forgotten, holds after any history. -/
theorem after_induction {motive : Lexicon → Prop} (hempty : motive empty)
    (hread : ∀ text read, ofText text = .ok read → motive read)
    (hput : ∀ lexicon word entry, Change.insert word entry ∈ history → motive lexicon →
      motive (lexicon.put (Text.lower word) entry))
    (herase : ∀ lexicon word, motive lexicon → motive (lexicon.erase word)) :
    motive (after history) := by
  induction history using List.reverseRecOn with
  | nil => exact hempty
  | append_singleton history change ih =>
    have hbefore := ih fun lexicon word entry hmem =>
      hput lexicon word entry (List.mem_append_left _ hmem)
    rw [after_concat]
    cases change with
    | read text =>
      cases h : ofText text with
      | error fault =>
        rw [changed_read_of_error h]
        exact hbefore
      | ok read =>
        rw [changed_read_of_ok h]
        exact hread text read h
    | insert word entry =>
      rw [changed_insert]
      split
      · exact hbefore
      · exact hput _ word entry (by simp) hbefore
    | erase word => exact herase _ word hbefore

/-- The words of a lexicon are in lower case. -/
theorem lower_eq_of_get?_after (h : (after history).get? word = some entry) :
    Text.lower word = word := by
  revert word entry
  refine after_induction (motive := fun lexicon => ∀ {word entry},
    lexicon.get? word = some entry → Text.lower word = word) (by simp) ?_ ?_ ?_
  · intro text read hread word entry h
    exact (isWritable_of_ofText hread word entry h).1.lower_eq
  · intro lexicon other found _ hlexicon word entry h
    rw [get?_put] at h
    split at h
    case isTrue hword => rw [← hword, Text.lower_lower]
    case isFalse => exact hlexicon h
  · intro lexicon other hlexicon word entry h
    rw [get?_erase] at h
    split at h
    · cases h
    · exact hlexicon h

/-- The words that are offered, and the base words in their entries, can be written. -/
def OffersWritable (history : List Change) : Prop :=
  ∀ word entry, Change.insert word entry ∈ history →
    Text.Unbroken word.toList ∧ entry.base.IsWritable

/-- If only writable entries are offered, the lexicon stays writable. -/
theorem isWritable_after (h : OffersWritable history) : (after history).IsWritable := by
  refine after_induction isWritable_empty (fun _ _ => isWritable_of_ofText) ?_
    fun _ word hlexicon => hlexicon.erase word
  intro lexicon word entry hmem hlexicon
  obtain ⟨hword, hbase⟩ := h word entry hmem
  exact hlexicon.put (isBare_lower hword) hbase

/-! ## Letter case -/

/-- After any history, a word in any letter case is forgotten with the entry that was stored last
    for it in any letter case.  Looking it up does not fold the case: the entry is found just if the
    word is written in lower case, and the base word and the element of a word are those of the
    entry that is found. -/
theorem lookups_need_lower_case (history : List Change) (word : String) :
    let lexicon := after history
    let found := if Text.lower word = word then lexicon.erased? word else none
    (∀ entry, lexicon.erased? word = some entry ↔ Stands history word entry) ∧
    lexicon.get? word = found ∧
    lexicon.canonical word = (found.bind fun entry => entry.base.word?).getD word ∧
    lexicon.element word = (found.bind Entry.element).getD .earth ∧
    (lexicon.get? word = lexicon.erased? word ↔
      Text.lower word = word ∨ lexicon.erased? word = none) := by
  intro lexicon found
  have hfound : lexicon.get? word = found := by
    by_cases hlower : Text.lower word = word
    · simp only [found, if_pos hlower, erased?, hlower]
    · -- What is kept is in lower case, and this word is not.
      simp only [found, if_neg hlower]
      exact Option.eq_none_iff_forall_ne_some.mpr fun entry h => hlower (lower_eq_of_get?_after h)
  refine ⟨get?_after history word, hfound, ?_, ?_, ?_⟩
  · rw [canonical_eq, hfound]
  · rw [element_eq, hfound]
  · rw [hfound]
    by_cases hlower : Text.lower word = word <;> simp [found, hlower, eq_comm]

/-- An entry that is offered for a word with a capital is stored and can be forgotten under it, but
    not found. -/
theorem capitals_hide_an_entry :
    let ember : Entry := ⟨.word "cinder", some .fire, [2]⟩
    let lexicon := after [.insert "Ember" ember]
    lexicon.erased? "Ember" = some ember ∧ lexicon.get? "Ember" = none ∧
      lexicon.canonical "Ember" = "Ember" ∧ lexicon.element "Ember" = .earth := by
  decide +kernel

end Verse.Lexicon
