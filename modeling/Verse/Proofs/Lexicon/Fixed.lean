import Verse.Proofs.Lexicon.History

/-!
# Words with a fixed meaning

Entries that are offered for commands and number words are refused, but the lines of a dictionary
are stored as they come.  So such words get entries from dictionaries and from nothing else.

* `isBare_of_isFixed`                     such words are in lower case and without white space
* `get?_after_of_isFixed`                 where an entry of such a word comes from
* `only_dictionaries_store_fixed_words`   what keeps them out, and what lets each of them in
-/

namespace Verse.Lexicon

/-- All words with a fixed meaning. -/
def fixedWords : List String :=
  Command.all.flatMap Command.words ++ Number.spellings.flatMap fun spelling => spelling.2

variable {word : String}

/-- Fixed words are listed, with those of commands first and the spellings of numbers behind. -/
theorem mem_fixedWords_of_isFixed (h : isFixed word = true) : word ∈ fixedWords := by
  rw [isFixed, Bool.or_eq_true, Number.isNumberWord, Number.ofWord?, Option.isSome_map,
    Command.ofWord?, List.find?_isSome, List.find?_isSome] at h
  simp only [fixedWords, List.mem_append, List.mem_flatMap]
  simpa using h

/-- The letters from a to z are small letters of the table. -/
theorem isSmall_of_isLower {c : Char} (h : c.isLower = true) : Text.IsSmall c := by
  have hsmalls : ∀ k < 26, 97 + k ∈ Text.smalls := by decide +kernel
  have hbounds : 97 ≤ c.toNat ∧ c.toNat ≤ 122 := by
    obtain ⟨hfirst, hlast⟩ := Bool.and_eq_true_iff.mp h
    exact ⟨of_decide_eq_true hfirst, of_decide_eq_true hlast⟩
  have hsmall := Text.IsSmall.ofNat (hsmalls (c.toNat - 97) (by omega))
  rwa [Nat.add_sub_cancel' hbounds.1, Char.ofNat_toNat] at hsmall

/-- Fixed words are made of small letters, so that a dictionary can hold them. -/
theorem isBare_of_isFixed (h : isFixed word = true) : IsBare word := by
  -- There are finitely many, and each can be looked at.
  have hall : (fixedWords.all fun word =>
      !word.toList.isEmpty && word.toList.all Char.isLower) = true := by
    decide +kernel
  have hword := List.all_eq_true.mp hall word (mem_fixedWords_of_isFixed h)
  rw [Bool.and_eq_true, List.all_eq_true] at hword
  have hsmall : ∀ c ∈ word.toList, Text.IsSmall c := fun c hc => isSmall_of_isLower (hword.2 c hc)
  refine ⟨⟨by simpa using hword.1, fun c hc => (hsmall c hc).not_isWhite⟩, ?_⟩
  rw [Text.lower, Text.lowerAfter_of_isSettled fun c hc => (hsmall c hc).toIsSettled,
    String.ofList_toList]

/-- An entry of such a word is what the last line for it says in a dictionary that has been read, if
    neither another has been read since nor the word forgotten.  Entries that are offered do not
    count. -/
theorem get?_after_of_isFixed (h : isFixed word = true) (history : List Change) (entry : Entry) :
    (after history).get? word = some entry ↔
      ∃ before text later, history = before ++ .read text :: later ∧
        (∃ lexicon, ofText text = .ok lexicon) ∧ Gives text word entry ∧
        ∀ change ∈ later, ¬ change.Touches word := by
  have hlower : Text.lower word = word := (isBare_of_isFixed h).lower_eq
  have hstands := get?_after history word entry
  rw [hlower] at hstands
  rw [hstands]
  constructor
  · rintro ⟨before, change, later, rfl, hstores, hlater⟩
    -- Of the changes only a dictionary can have stored the entry.
    cases change with
    | read text => exact ⟨before, text, later, rfl, hstores.1, hstores.2, hlater⟩
    | insert other found =>
      have hfree : isFixed (Text.lower word) = false := hstores.1.2
      rw [hlower, h] at hfree
      cases hfree
    | erase other => exact hstores.elim
  · rintro ⟨before, text, later, rfl, hread, hgives, hlater⟩
    exact ⟨before, .read text, later, rfl, ⟨hread, hgives⟩, hlater⟩

/-- A dictionary that is the saved lexicon, or has no line for the word, brings in nothing. -/
theorem get?_after_eq_none (h : isFixed word = true) {history : List Change}
    (hoffers : OffersWritable history)
    (hreads : ∀ before text later, history = before ++ .read text :: later →
      text = (after before).toText ∨ ∀ entry, ¬ Gives text word entry) :
    (after history).get? word = none := by
  -- An entry that was saved had to be there before, in a shorter history.
  induction hlength : history.length using Nat.strongRecOn generalizing history with
  | ind n ih =>
    refine Option.eq_none_iff_forall_ne_some.mpr fun entry hentry => ?_
    obtain ⟨before, text, later, rfl, ⟨lexicon, hread⟩, hgives, -⟩ :=
      (get?_after_of_isFixed h history entry).mp hentry
    obtain rfl | hnone := hreads before text later rfl
    · -- The saved lexicon has what the history before it has stored, and that is nothing.
      have hbefore : OffersWritable before := fun other found hmem =>
        hoffers other found (List.mem_append_left _ hmem)
      have hsaved := get?_of_ofText (ofText_toText (isWritable_after hbefore)) word entry
      rw [(isBare_of_isFixed h).lower_eq] at hsaved
      have hempty : (after before).get? word = none := by
        refine ih before.length (by simp [← hlength]) hbefore (fun first text rest hsplit => ?_) rfl
        refine hreads first text (rest ++ .read (after before).toText :: later) ?_
        rw [hsplit, List.append_assoc, List.cons_append]
      rw [hempty] at hsaved
      exact absurd (hsaved.mpr hgives) (by simp)
    · exact hnone entry hgives

/-- Where the entries of words with a fixed meaning come from, after any history of dictionaries
    that are read, entries that are offered and words that are forgotten.  A lexicon that is saved
    and loaded reads its own dictionary.

    Such a word has an entry just if a dictionary with a line for it has been read, and neither
    another has been read since nor the word forgotten.  So without such lines it has none, however
    often the lexicon is saved and loaded, if what is offered can be written.  And there is a line
    for each of these words that brings it in. -/
theorem only_dictionaries_store_fixed_words {word : String} (h : isFixed word = true) :
    (∀ history entry, (after history).get? word = some entry ↔
      ∃ before text later, history = before ++ .read text :: later ∧
        (∃ lexicon, ofText text = .ok lexicon) ∧ Gives text word entry ∧
        ∀ change ∈ later, ¬ change.Touches word) ∧
    (∀ history, OffersWritable history →
      (∀ before text later, history = before ++ .read text :: later →
        text = (after before).toText ∨ ∀ entry, ¬ Gives text word entry) →
      (after history).get? word = none) ∧
    ∃ text lexicon, ofText text = .ok lexicon ∧
      lexicon.get? word = some { base := .missing, element := none, syllables := [] } := by
  refine ⟨get?_after_of_isFixed h, fun history => get?_after_eq_none h, ?_⟩
  let lexicon := empty.put word { base := .missing, element := none, syllables := [] }
  have hwritable : lexicon.IsWritable :=
    isWritable_empty.put (isBare_of_isFixed h) (by simp [BaseWord.IsWritable])
  exact ⟨lexicon.toText, lexicon, ofText_toText hwritable, by rw [get?_put, if_pos rfl]⟩

/-- An entry is offered for heaven in capitals, and the lexicon is saved and loaded. -/
theorem only_dictionaries_store_fixed_words_heaven :
    let offered := [Change.insert "HEAVEN" { base := .itself, element := none, syllables := [2] }]
    isFixed "heaven" = true ∧
      (after (offered ++ [.read (after offered).toText])).get? "heaven" = none ∧
      ∃ text lexicon, ofText text = .ok lexicon ∧
        lexicon.get? "heaven" = some { base := .missing, element := none, syllables := [] } := by
  intro offered
  have hfixed : isFixed "heaven" = true := by decide
  obtain ⟨-, hnone, hsome⟩ := only_dictionaries_store_fixed_words hfixed
  refine ⟨hfixed, hnone _ ?_ ?_, hsome⟩
  · intro word entry hmem
    obtain ⟨rfl, rfl⟩ : word = "HEAVEN" ∧ entry = _ := by simpa [offered] using hmem
    exact ⟨by decide, by simp [BaseWord.IsWritable]⟩
  · intro before text later hhistory
    -- The only dictionary that is read comes second.
    rw [List.singleton_append, List.cons_eq_append_iff] at hhistory
    obtain ⟨-, hcons⟩ | ⟨rest, rfl, hrest⟩ := hhistory
    · cases hcons
    · obtain ⟨rfl, hcons⟩ | ⟨more, rfl, hmore⟩ := List.cons_eq_append_iff.mp hrest
      · cases hcons
        exact .inl rfl
      · simp at hmore

/-- A word with white space in it can be offered.  Once it is saved, its line is one for a fixed
    word. -/
example :
    let offered := [Change.insert " heaven" { base := .itself, element := none, syllables := [] }]
    ((after (offered ++ [.read (after offered).toText])).get? "heaven").isSome = true := by
  decide +kernel

/-- The line of a dictionary is stored, although heaven is a command. -/
theorem dictionaries_store_heaven :
    isFixed "heaven" = true ∧ (after [.read "heaven _ fire 2"]).get? "heaven" =
      some { base := .missing, element := some .fire, syllables := [2] } := by
  decide +kernel

end Verse.Lexicon
