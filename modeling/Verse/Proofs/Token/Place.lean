import Mathlib.Data.List.Induction
import Mathlib.Data.List.TakeWhile
import Verse.Token.Lexeme

/-!
# Places of lexemes

A place is counted off the characters before it.  Every lexeme stands at the place behind the
characters before it, so lexemes that follow each other in a text stand at places that do.

* `Place.behind`                    the place behind some characters
* `Place.precedes_behind_append`    more characters lead to a later place
* `Lexeme.laid_scan`                every lexeme is cut off at its place
-/

namespace Verse

namespace Place

/-- The place behind the first characters of a text: one line further for each line feed, and one
    column further for each character after the last of them. -/
def behind (before : List Char) : Place where
  line := before.count '\n' + 1
  column := (before.reverse.takeWhile (· != '\n')).length + 1

example : behind "né\nmoon ".toList = ⟨2, 6⟩ := by decide

/-- Behind a line feed, a new line begins. -/
theorem behind_append_newline (before : List Char) :
    behind (before ++ ['\n']) = ⟨(behind before).line + 1, 1⟩ := by
  simp [behind]

/-- Behind any other character, there is one column more. -/
theorem behind_append_singleton (before : List Char) {c : Char} (h : c ≠ '\n') :
    behind (before ++ [c]) = ⟨(behind before).line, (behind before).column + 1⟩ := by
  simp [behind, h]

/-- Behind a word, there are as many columns more as it has characters. -/
theorem behind_append (before : List Char) {word : List Char} (h : ∀ c ∈ word, c ≠ '\n') :
    behind (before ++ word) = ⟨(behind before).line, (behind before).column + word.length⟩ := by
  induction word using List.reverseRecOn with
  | nil => simp
  | append_singleton word c ih =>
    rw [← List.append_assoc, behind_append_singleton _ (h c (by simp)),
      ih fun c hc => h c (List.mem_append_left _ hc)]
    simp [Nat.add_assoc]

/-- A place comes before another one in the order of reading. -/
def Precedes (place later : Place) : Prop :=
  place.line < later.line ∨ place.line = later.line ∧ place.column < later.column

/-- What comes before an earlier place comes before a later one. -/
theorem Precedes.trans {place₁ place₂ place₃ : Place} (h : place₁.Precedes place₂)
    (h' : place₂.Precedes place₃) : place₁.Precedes place₃ := by
  simp only [Precedes] at *
  omega

/-- Every character leads to a later place. -/
theorem precedes_behind_append (before : List Char) {word : List Char} (h : word ≠ []) :
    (behind before).Precedes (behind (before ++ word)) := by
  induction word using List.reverseRecOn with
  | nil => exact absurd rfl h
  | append_singleton word c ih =>
    -- The last character leads further, and so do those before it if there are any.
    have hlast : (behind (before ++ word)).Precedes (behind (before ++ word ++ [c])) := by
      by_cases hc : c = '\n'
      · rw [hc, behind_append_newline]
        exact .inl (Nat.lt_succ_self _)
      · rw [behind_append_singleton _ hc]
        exact .inr ⟨rfl, Nat.lt_succ_self _⟩
    rw [← List.append_assoc]
    by_cases hword : word = []
    · simpa [hword] using hlast
    · exact (ih hword).trans hlast

/-- Some characters, at least one, that a text has at a place once it is in lower case. -/
def Spells (place : Place) (text word : List Char) : Prop :=
  word ≠ [] ∧ ∃ before rest, text = before ++ rest ∧ place = behind before ∧
    word <+: rest.map Char.toLower

/-- Nothing stands at a place that is not counted from one. -/
theorem Spells.pos {place : Place} {text word : List Char} (h : place.Spells text word) :
    0 < place.line ∧ 0 < place.column := by
  obtain ⟨-, before, rest, -, rfl, -⟩ := h
  exact ⟨Nat.succ_pos _, Nat.succ_pos _⟩

end Place

namespace Lexeme

/-! ## Characters of words -/

/-- A line feed is not part of any word. -/
theorem ne_newline_of_isWordChar {c : Char} (h : isWordChar c = true) : c ≠ '\n' := by
  rintro rfl
  exact absurd h (by decide)

/-- A word goes on as long as there are characters for it. -/
theorem forall_isWordChar {c : Char} (h : isWordChar c = true) (rest : List Char) :
    ∀ c' ∈ c :: rest.takeWhile isWordChar, isWordChar c' = true :=
  List.forall_mem_cons.mpr ⟨h, fun _ hc' => List.mem_takeWhile_imp hc'⟩

/-- A lexeme is a word or a single character. -/
theorem text_of_mem_scan {line column : Nat} {text : List Char} {lexeme : Lexeme}
    (h : lexeme ∈ scan line column text) :
    (∀ c ∈ lexeme.text, isWordChar c = true) ∨ ∃ c, lexeme.text = [c] := by
  fun_induction scan line column text with
  | case1 => cases h
  | case2 _ _ _ ih => exact ih h
  | case3 _ _ _ _ _ _ ih => exact ih h
  | case4 line column c rest _ _ hword =>
    rename_i ih
    obtain rfl | h := List.mem_cons.mp h
    · exact .inl (forall_isWordChar hword rest)
    · exact ih h
  | case5 line column c rest _ _ _ ih =>
    obtain rfl | h := List.mem_cons.mp h
    · exact .inr ⟨c, rfl⟩
    · exact ih h

/-! ## Lexemes in their order -/

/-- Lexemes that stand in a text one after the other, each at its place.  The characters of
    `before` come before the text. -/
inductive Laid : List Char → List Char → List Lexeme → Prop where
  | nil {before text : List Char} : Laid before text []
  | skip {before gap text : List Char} {lexemes : List Lexeme}
      (h : Laid (before ++ gap) text lexemes) : Laid before (gap ++ text) lexemes
  | cons {before word text : List Char} {lexemes : List Lexeme} (hword : word ≠ [])
      (h : Laid (before ++ word) text lexemes) :
      Laid before (word ++ text) (⟨.behind before, word⟩ :: lexemes)

/-- Every lexeme is cut off at its place. -/
theorem laid_scan {before : List Char} {line column : Nat}
    (h : Place.behind before = ⟨line, column⟩) (text : List Char) :
    Laid before text (scan line column text) := by
  -- The scanner's line and column are always those behind the characters that it has passed.
  fun_induction scan line column text generalizing before with
  | case1 => exact .nil
  | case2 line column rest ih =>
    change Laid before (['\n'] ++ rest) _
    refine .skip (ih ?_)
    rw [Place.behind_append_newline, h]
  | case3 line column c rest hnewline _ ih =>
    change Laid before ([c] ++ rest) _
    refine .skip (ih ?_)
    rw [Place.behind_append_singleton _ hnewline, h]
  | case4 line column c rest _ _ hword =>
    rename_i word ih
    -- A word lies on one line, so that only the column goes on.
    have hwords := fun c' hc' => ne_newline_of_isWordChar (forall_isWordChar hword rest c' hc')
    have htext : c :: rest = word ++ rest.dropWhile isWordChar := by
      simp [word, List.takeWhile_append_dropWhile]
    rw [htext, ← h]
    refine .cons (List.cons_ne_nil _ _) (ih ?_)
    rw [Place.behind_append _ hwords, h]
  | case5 line column c rest hnewline _ _ ih =>
    rw [← h]
    change Laid before ([c] ++ rest) _
    refine .cons (List.cons_ne_nil _ _) (ih ?_)
    rw [Place.behind_append_singleton _ hnewline, h]

section

variable {before text : List Char} {lexemes : List Lexeme}

/-- Lexemes may be left out. -/
theorem Laid.sublist {kept : List Lexeme} (h : Laid before text lexemes)
    (hkept : kept.Sublist lexemes) : Laid before text kept := by
  -- A lexeme that is left out becomes a gap.
  induction h generalizing kept with
  | nil =>
    obtain rfl := List.sublist_nil.mp hkept
    exact .nil
  | skip _ ih => exact .skip (ih hkept)
  | cons hword _ ih =>
    cases hkept with
    | cons _ hkept => exact .skip (ih hkept)
    | cons_cons _ hkept => exact .cons hword (ih hkept)

/-- A lexeme is cut out of the text, and stands behind what comes before it. -/
theorem Laid.exists_of_mem {lexeme : Lexeme} (h : Laid before text lexemes)
    (hmem : lexeme ∈ lexemes) :
    lexeme.text ≠ [] ∧ ∃ skipped rest, text = skipped ++ (lexeme.text ++ rest) ∧
      lexeme.place = .behind (before ++ skipped) := by
  induction h with
  | nil => cases hmem
  | @skip before gap text lexemes _ ih =>
    obtain ⟨hne, skipped, rest, rfl, hplace⟩ := ih hmem
    exact ⟨hne, gap ++ skipped, rest, by rw [List.append_assoc], by rw [hplace, List.append_assoc]⟩
  -- It is the first one, or else it lies behind that.
  | @cons before word text lexemes hword _ ih =>
    obtain rfl | hmem := List.mem_cons.mp hmem
    · exact ⟨hword, [], text, rfl, by rw [List.append_nil]⟩
    · obtain ⟨hne, skipped, rest, rfl, hplace⟩ := ih hmem
      exact ⟨hne, word ++ skipped, rest, by rw [List.append_assoc],
        by rw [hplace, List.append_assoc]⟩

/-- One lexeme after the other stands at a later place. -/
theorem Laid.pairwise (h : Laid before text lexemes) :
    lexemes.Pairwise (·.place.Precedes ·.place) := by
  induction h with
  | nil => exact .nil
  | skip _ ih => exact ih
  | @cons before word text lexemes hword h ih =>
    refine .cons (fun later hlater => ?_) ih
    -- A later lexeme stands behind this one and whatever lies in between.
    obtain ⟨-, skipped, -, -, hplace⟩ := h.exists_of_mem hlater
    rw [hplace, List.append_assoc]
    exact Place.precedes_behind_append before (List.append_ne_nil_of_left_ne_nil hword skipped)

/-- The text has every lexeme at its place. -/
theorem Laid.spells {lexeme : Lexeme} (h : Laid [] text lexemes) (hmem : lexeme ∈ lexemes) :
    lexeme.place.Spells text (lexeme.text.map Char.toLower) := by
  obtain ⟨hne, before, rest, rfl, hplace⟩ := h.exists_of_mem hmem
  refine ⟨by simpa using hne, before, lexeme.text ++ rest, rfl, hplace, ?_⟩
  rw [List.map_append]
  exact List.prefix_append _ _

end

end Lexeme

end Verse
