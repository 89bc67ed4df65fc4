import Verse.Lexicon.Format
import Verse.Proofs.Except

/-!
# What a dictionary says of a word

The lines of a dictionary are stored one after the other, each in place of an earlier one for the
same word in any letter case.  So what a dictionary says of a word is what its last line for the
word says.

* `LastOf`               what is true of the last member of a list that counts
* `Gives`                the last line of a dictionary for a word
* `get?_of_readLines`    lines on top of what is known already
* `get?_of_ofText`       a whole dictionary
-/

namespace Verse

/-! ## The last member that counts -/

/-- Some member of a list is as asked for, and none after it counts. -/
def LastOf {α : Type} (counts asked : α → Prop) (list : List α) : Prop :=
  ∃ before a after, list = before ++ a :: after ∧ asked a ∧ ∀ b ∈ after, ¬ counts b

section

variable {α : Type} {counts asked : α → Prop} {a : α} {list : List α}

/-- An empty list has no last member. -/
theorem not_lastOf_nil : ¬ LastOf counts asked [] := by
  rintro ⟨before, a, after, hlist, -⟩
  simp at hlist

/-- A member in front is the last one that counts only if none of the others does. -/
theorem lastOf_cons_iff :
    LastOf counts asked (a :: list) ↔
      LastOf counts asked list ∨ asked a ∧ ∀ b ∈ list, ¬ counts b := by
  constructor
  · rintro ⟨before, b, after, hlist, hasked, hafter⟩
    obtain ⟨rfl, hcons⟩ | ⟨rest, rfl, rfl⟩ := List.cons_eq_append_iff.mp hlist
    · obtain ⟨rfl, rfl⟩ := List.cons.inj hcons
      exact .inr ⟨hasked, hafter⟩
    · exact .inl ⟨rest, b, after, rfl, hasked, hafter⟩
  · rintro (⟨before, b, after, rfl, hasked, hafter⟩ | ⟨hasked, hlist⟩)
    · exact ⟨a :: before, b, after, rfl, hasked, hafter⟩
    · exact ⟨[], a, list, rfl, hasked, hlist⟩

/-- A member behind is the last one if it counts at all. -/
theorem lastOf_concat_iff :
    LastOf counts asked (list ++ [a]) ↔ asked a ∨ ¬ counts a ∧ LastOf counts asked list := by
  constructor
  · rintro ⟨before, b, after, hlist, hasked, hafter⟩
    -- It depends on what is after the member whether that is the new one.
    obtain rfl | ⟨after, c, rfl⟩ := List.eq_nil_or_concat after
    · obtain ⟨-, rfl⟩ := List.append_singleton_inj.mp hlist
      exact .inl hasked
    · rw [List.concat_eq_append, ← List.cons_append, ← List.append_assoc] at hlist
      obtain ⟨rfl, rfl⟩ := List.append_singleton_inj.mp hlist
      exact .inr ⟨hafter a (by simp), before, b, after, rfl, hasked,
        fun c hc => hafter c (by simp [hc])⟩
  · rintro (hasked | ⟨hcounts, before, b, after, rfl, hasked, hafter⟩)
    · exact ⟨list, a, [], rfl, hasked, by simp⟩
    · refine ⟨before, b, after ++ [a], by simp, hasked, fun c hc => ?_⟩
      obtain hc | hc := List.mem_append.mp hc
      · exact hafter c hc
      · rwa [List.mem_singleton.mp hc]

end

namespace Lexicon

/-! ## Lines -/

/-- A line of a dictionary says this of a word, which stands in front of it. -/
def Says (line : List Char) (word : String) (entry : Entry) : Prop :=
  ∃ fields, (Text.fields line).map String.ofList = word :: fields ∧
    Entry.ofFields fields = .ok entry

/-- A line is for a word, in any letter case, and says this of it. -/
def SaysOf (word : String) (entry : Entry) (line : List Char) : Prop :=
  ∃ other, Says line other entry ∧ Text.lower other = Text.lower word

/-- A line is for a word, in any letter case. -/
def IsLineFor (word : String) (line : List Char) : Prop :=
  ∃ entry, SaysOf word entry line

/-- The last line of a dictionary for a word, in any letter case, says this of it. -/
def Gives (text word : String) (entry : Entry) : Prop :=
  LastOf (IsLineFor word) (SaysOf word entry) (Text.lines text.toList)

variable {line : List Char} {word other : String} {fields : List String} {entry found : Entry}

/-- A blank line says nothing of any word. -/
theorem not_saysOf_of_blank (h : (Text.fields line).map String.ofList = []) :
    ¬ SaysOf word entry line := by
  rintro ⟨other, ⟨fields, hfields, -⟩, -⟩
  rw [h] at hfields
  cases hfields

/-- What is true of a line in terms of its first field and of the entry of the others. -/
theorem saysOf_iff (hline : (Text.fields line).map String.ofList = other :: fields)
    (hfields : Entry.ofFields fields = .ok found) :
    SaysOf word entry line ↔ Text.lower other = Text.lower word ∧ found = entry := by
  constructor
  · rintro ⟨first, ⟨rest, hrest, hentry⟩, hword⟩
    obtain ⟨rfl, rfl⟩ := List.cons.inj (hline.symm.trans hrest)
    exact ⟨hword, Except.ok.inj (hfields.symm.trans hentry)⟩
  · rintro ⟨hword, rfl⟩
    exact ⟨other, ⟨fields, hline, hfields⟩, hword⟩

/-! ## Dictionaries -/

/-- What is known of a word once the lines of a dictionary have been read: what the last line for it
    says, or what was known before if there is none. -/
theorem get?_of_readLines {lexicon next : Lexicon} {number : Nat} {lines : List (List Char)}
    (h : lexicon.readLines number lines = .ok next) (word : String) (entry : Entry) :
    next.get? (Text.lower word) = some entry ↔
      LastOf (IsLineFor word) (SaysOf word entry) lines ∨
        lexicon.get? (Text.lower word) = some entry ∧ ∀ line ∈ lines, ¬ IsLineFor word line := by
  -- The induction is on the lines, for any lexicon they are read on top of.
  induction lines generalizing lexicon number with
  | nil =>
    obtain rfl := Except.ok.inj h
    simp [not_lastOf_nil]
  | cons line lines ih =>
    rw [readLines] at h
    rw [lastOf_cons_iff, List.forall_mem_cons]
    split at h
    -- A blank line is skipped, a faulty one ends the reading, and any other stores an entry.
    case h_1 hblank =>
      have hsays : ∀ entry, ¬ SaysOf word entry line := fun entry => not_saysOf_of_blank hblank
      rw [ih h]
      simp [IsLineFor, hsays]
    case h_2 other fields hline =>
      split at h
      case h_1 => cases h
      case h_2 found hfields =>
        have hsays : ∀ entry, SaysOf word entry line ↔
            Text.lower other = Text.lower word ∧ found = entry :=
          fun entry => saysOf_iff hline hfields
        rw [ih h, get?_put]
        -- The line takes the place of what was known if it is for the word, and else leaves it.
        by_cases hword : Text.lower other = Text.lower word <;>
          simp [IsLineFor, hsays, hword]

/-- What is known of a word once a dictionary has been read. -/
theorem get?_of_ofText {text : String} {lexicon : Lexicon} (h : ofText text = .ok lexicon)
    (word : String) (entry : Entry) :
    lexicon.get? (Text.lower word) = some entry ↔ Gives text word entry := by
  rw [get?_of_readLines h, get?_empty]
  simp [Gives]

end Lexicon

end Verse
