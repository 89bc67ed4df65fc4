import Mathlib.Algebra.Group.Nat.Even
import Mathlib.Data.Nat.Bits
import Mathlib.Logic.Relation
import Verse.Proofs.Token.Relocation
import Verse.Proofs.Token.Source

/-!
# The layout of a text

Letters may be written in either case, and words may be set apart by blanks, line feeds and
comments of any kind.  A text is read alike however this is done, but for the places of its words
and faults.

* `Lexeme.cut_append`             lexemes before and behind a character that ends a word
* `Piece.kept_cut_layout`         layout is cut out with its comments
* `Piece.ofLexemes_map_toLower`   pieces do not show the case of letters
* `layout_never_matters`          texts of different layout are read alike
-/

namespace Verse

namespace Lexeme

/-! ## Lexemes without their places -/

/-- The lexemes of a text, all at one place. -/
def cut (text : List Char) : List Lexeme :=
  (scan 1 1 text).map (relocate fun _ => ⟨1, 1⟩)

/-- Characters that stand between lexemes. -/
def isGap (c : Char) : Bool :=
  c == '\n' || isBlank c

/-- Where a text stands does not matter to its lexemes. -/
theorem map_relocate_scan (line column : Nat) (text : List Char) :
    (scan line column text).map (relocate fun _ => ⟨1, 1⟩) = cut text := by
  -- Each step of the scan does the same at any other place.
  have hscan : ∀ line' column', (scan line column text).map (relocate fun _ => ⟨1, 1⟩) =
      (scan line' column' text).map (relocate fun _ => ⟨1, 1⟩) := by
    fun_induction scan line column text with
    | case1 => simp [scan]
    | case2 line column rest ih =>
      intro line' column'
      rw [scan, if_pos rfl, ih]
    | case3 line column c rest hnewline hblank ih =>
      intro line' column'
      rw [scan, if_neg hnewline, if_pos hblank, ih]
    | case4 line column c rest hnewline hblank hword =>
      rename_i ih
      intro line' column'
      rw [scan, if_neg hnewline, if_neg hblank, if_pos hword, List.map_cons, List.map_cons, ih]
      rfl
    | case5 line column c rest hnewline hblank hword ih =>
      intro line' column'
      rw [scan, if_neg hnewline, if_neg hblank, if_neg hword, List.map_cons, List.map_cons, ih]
      rfl
  exact hscan 1 1

/-- What stands between lexemes is in none of them. -/
theorem isWordChar_of_isGap {c : Char} (hc : isGap c = true) : isWordChar c = false := by
  rw [Bool.eq_false_iff]
  intro hword
  rw [isGap, isBlank_of_isWordChar hword, Bool.or_false] at hc
  exact ne_newline_of_isWordChar hword (eq_of_beq hc)

/-- Between lexemes nothing is cut out. -/
theorem cut_gap {c : Char} (hc : isGap c = true) (rest : List Char) :
    cut (c :: rest) = cut rest := by
  rw [← map_relocate_scan 1 1 (c :: rest), scan]
  split
  · exact map_relocate_scan _ _ _
  case isFalse hnewline =>
    have hblank : isBlank c = true := by simpa [isGap, hnewline] using hc
    rw [if_pos hblank]
    exact map_relocate_scan _ _ _

/-- Any other character that is not of a word is a lexeme by itself. -/
theorem cut_single {c : Char} (hgap : isGap c = false) (hword : isWordChar c = false)
    (rest : List Char) : cut (c :: rest) = ⟨⟨1, 1⟩, [c]⟩ :: cut rest := by
  obtain ⟨hnewline, hblank⟩ : ¬ c = '\n' ∧ ¬ isBlank c = true := by simpa [isGap] using hgap
  rw [← map_relocate_scan 1 1 (c :: rest), scan, if_neg hnewline, if_neg hblank,
    if_neg (by simp [hword]), ← map_relocate_scan 1 2 rest]
  rfl

theorem cut_comma (rest : List Char) : cut (',' :: rest) = ⟨⟨1, 1⟩, [',']⟩ :: cut rest :=
  cut_single (by decide) (by decide) rest

theorem cut_hyphen (rest : List Char) : cut ('-' :: rest) = ⟨⟨1, 1⟩, ['-']⟩ :: cut rest :=
  cut_single (by decide) (by decide) rest

section

variable {rest : List Char}

/-- A word ends where it ended before. -/
theorem takeWhile_append_of_endsWord (h : EndsWord rest) (word : List Char) :
    (word ++ rest).takeWhile isWordChar = word.takeWhile isWordChar := by
  rw [List.takeWhile_append, takeWhile_of_endsWord h]
  split
  -- Where the whole text is taken, there is nothing behind it that goes on with the word.
  case isTrue hlength =>
    rw [List.append_nil]
    exact ((List.takeWhile_prefix _).eq_of_length hlength).symm
  case isFalse => rfl

/-- And what follows it is followed by the rest. -/
theorem dropWhile_append_of_endsWord (h : EndsWord rest) (word : List Char) :
    (word ++ rest).dropWhile isWordChar = word.dropWhile isWordChar ++ rest := by
  rw [List.dropWhile_append, dropWhile_of_endsWord h]
  split
  case isTrue hempty => rw [List.isEmpty_iff.mp hempty, List.nil_append]
  case isFalse => rfl

/-- What ends a word divides the lexemes of a text. -/
theorem cut_append (before : List Char) (h : EndsWord rest) :
    cut (before ++ rest) = cut before ++ cut rest := by
  have hscan : ∀ line column, (scan line column (before ++ rest)).map (relocate fun _ => ⟨1, 1⟩) =
      (scan line column before).map (relocate fun _ => ⟨1, 1⟩) ++ cut rest := by
    intro line column
    fun_induction scan line column before with
    | case1 line column => exact map_relocate_scan line column rest
    | case2 line column before ih => rw [List.cons_append, scan, if_pos rfl, ih]
    | case3 line column c before hnewline hblank ih =>
      rw [List.cons_append, scan, if_neg hnewline, if_pos hblank, ih]
    -- A word in front of the rest is taken as a whole, because the rest ends words.
    | case4 line column c before hnewline hblank hword word ih =>
      rw [List.cons_append, scan, if_neg hnewline, if_neg hblank, if_pos hword,
        takeWhile_append_of_endsWord h, dropWhile_append_of_endsWord h]
      simp only [List.map_cons, List.cons_append]
      rw [ih]
    | case5 line column c before hnewline hblank hword ih =>
      rw [List.cons_append, scan, if_neg hnewline, if_neg hblank, if_neg hword, List.map_cons,
        List.map_cons, ih, List.cons_append]
  exact hscan 1 1

end

/-! ## Layout -/

/-- Blanks, line feeds and complete comments, in any number and order. -/
inductive IsLayout : List Char → Prop where
  | nil : IsLayout []
  | gap {c : Char} {layout : List Char} (hc : isGap c = true) (h : IsLayout layout) :
      IsLayout (c :: layout)
  | comment {body layout : List Char} (hbody : ',' ∉ body) (h : IsLayout layout) :
      IsLayout (',' :: (body ++ ',' :: layout))

/-- Whether the characters of a text up to some place leave it outside comments: their commas open
    and close comments in turn. -/
def IsOutside (before : List Char) : Prop :=
  Even (before.count ',')

instance (before : List Char) : Decidable (IsOutside before) :=
  inferInstanceAs (Decidable (Even _))

/-- Layout ends a word, and so does what may follow where there is none. -/
theorem IsLayout.endsWord {layout rest : List Char} (h : IsLayout layout)
    (hrest : layout ≠ [] ∨ EndsWord rest) : EndsWord (layout ++ rest) := by
  cases h with
  | nil => simpa using hrest
  | gap hc _ =>
    intro c' hc'
    obtain rfl := Option.some.inj hc'
    exact isWordChar_of_isGap hc
  | comment _ _ =>
    intro c' hc'
    obtain rfl := Option.some.inj hc'
    rfl

end Lexeme

namespace Piece

open Lexeme

/-- A comma decides for all that follows whether it is kept. -/
theorem kept_append (inside : Bool) (lexemes rest : List Lexeme) :
    kept inside (lexemes ++ rest) =
      kept inside lexemes ++ kept (inside ^^ (lexemes.countP isComma).bodd) rest := by
  induction lexemes generalizing inside with
  | nil => simp [kept, uncomment]
  | cons lexeme lexemes ih =>
    by_cases hcomma : lexeme.isComma = true
    · -- A comma turns the state over, and is not kept itself.
      rw [List.cons_append, kept_comma inside hcomma, kept_comma inside hcomma, ih,
        List.countP_cons_of_pos hcomma, Nat.bodd_succ]
      simp
    · have hkept : ∀ lexemes, kept inside (lexeme :: lexemes) =
          kept inside [lexeme] ++ kept inside lexemes := by
        intro lexemes
        cases inside <;> cases hdigit : isDigit lexeme <;> simp [kept, uncomment, hcomma, hdigit]
      rw [List.cons_append, hkept, hkept lexemes, ih, List.countP_cons_of_neg hcomma,
        List.append_assoc]

/-- In a comment nothing is kept. -/
theorem kept_true_append {lexemes : List Lexeme} (h : lexemes.countP isComma = 0)
    (rest : List Lexeme) : kept true (lexemes ++ rest) = kept true rest := by
  induction lexemes with
  | nil => rfl
  | cons lexeme lexemes ih =>
    obtain ⟨hcomma, hcommas⟩ := List.forall_mem_cons.mp (List.countP_eq_zero.mp h)
    rw [List.cons_append, ← ih (List.countP_eq_zero.mpr hcommas)]
    simp [kept, uncomment, hcomma]

end Piece

namespace Lexeme

/-- Every comma is a lexeme of its own. -/
theorem countP_isComma_cut (text : List Char) : (cut text).countP isComma = text.count ',' := by
  have hscan : ∀ line column, (scan line column text).countP isComma = text.count ',' := by
    intro line column
    fun_induction scan line column text with
    | case1 => rfl
    | case2 line column rest ih => rw [ih, List.count_cons_of_ne (by decide)]
    | case3 line column c rest hnewline hblank ih =>
      -- Blanks and letters are no commas.
      have hcomma : c ≠ ',' := by
        rintro rfl
        cases hblank
      rw [ih, List.count_cons_of_ne hcomma]
    | case4 line column c rest hnewline hblank hword word ih =>
      -- A word is counted with its characters, and none of them is a comma.
      have hcommas : ∀ c' ∈ word, c' ≠ ',' :=
        fun c' hc' => ne_comma_of_isWordChar (forall_isWordChar hword rest c' hc')
      have hword : isComma ⟨⟨line, column⟩, word⟩ = false := by
        refine beq_eq_false_iff_ne.mpr fun h => ?_
        exact hcommas ',' (by rw [show word = [','] from h]; exact List.mem_cons_self) rfl
      have htext : c :: rest = word ++ rest.dropWhile isWordChar := by
        simp [word, List.takeWhile_append_dropWhile]
      rw [List.countP_cons_of_neg (by simp [hword]), ih, htext, List.count_append,
        List.count_eq_zero.mpr fun h => hcommas ',' h rfl, Nat.zero_add]
    | case5 line column c rest hnewline hblank hword ih =>
      rw [List.countP_cons, List.count_cons, ih]
      simp [isComma]
  rw [cut, List.countP_map]
  exact hscan 1 1

end Lexeme

namespace Piece

open Lexeme

/-- Layout is cut out with its comments. -/
theorem kept_cut_layout {layout : List Char} (h : IsLayout layout) (rest : List Char) :
    kept false (cut (layout ++ rest)) = kept false (cut rest) := by
  induction h with
  | nil => rfl
  | gap hc _ ih => rw [List.cons_append, cut_gap hc, ih]
  | @comment body layout hbody _ ih =>
    -- The comma that ends the comment ends the last of its words.
    have hcomma : EndsWord (',' :: (layout ++ rest)) := by
      intro c hc
      obtain rfl := Option.some.inj hc
      rfl
    -- There is no comma in the comment, so it goes on to its end.
    have hnone : (cut body).countP isComma = 0 := by
      rw [countP_isComma_cut, List.count_eq_zero.mpr hbody]
    rw [List.cons_append, List.append_assoc, List.cons_append, cut_comma, kept_comma _ rfl,
      cut_append body hcomma, Bool.not_false, kept_true_append hnone, cut_comma,
      kept_comma _ rfl]
    exact ih

/-- Outside comments, what is kept of a text is kept before and behind some layout. -/
theorem kept_cut_append {before layout rest : List Char} (houtside : IsOutside before)
    (hlayout : IsLayout layout) (hrest : layout ≠ [] ∨ EndsWord rest) :
    kept false (cut (before ++ (layout ++ rest))) =
      kept false (cut before) ++ kept false (cut rest) := by
  have hbodd : ((cut before).countP isComma).bodd = false := by
    rw [countP_isComma_cut]
    -- As many commas open a comment as close one.
    have hmod := Nat.even_iff.mp houtside
    rw [Nat.mod_two_of_bodd] at hmod
    exact Bool.toNat_eq_zero.mp hmod
  rw [cut_append before (hlayout.endsWord hrest), kept_append, hbodd, Bool.xor_false,
    kept_cut_layout hlayout]

/-- What is kept of some lexemes does not depend on what changes neither commas nor digits. -/
theorem kept_map (change : Lexeme → Lexeme)
    (hcomma : ∀ lexeme, (change lexeme).isComma = lexeme.isComma)
    (hdigit : ∀ lexeme, isDigit (change lexeme) = isDigit lexeme) (inside : Bool)
    (lexemes : List Lexeme) :
    kept inside (lexemes.map change) = (kept inside lexemes).map change := by
  have huncomment : uncomment inside (lexemes.map change) =
      (uncomment inside lexemes).map change := by
    induction lexemes generalizing inside with
    | nil => rfl
    | cons lexeme lexemes ih =>
      rw [List.map_cons, uncomment, uncomment, ih, ih, hcomma]
      split
      · rfl
      · split <;> rfl
  rw [kept, kept, huncomment, List.filter_map]
  simp only [Function.comp_def, hdigit]

/-- What a lexeme is does not depend on its place. -/
theorem ofLexeme_relocate (lexicon : Lexicon) (move : Place → Place) (lexeme : Lexeme) :
    ofLexeme lexicon (lexeme.relocate move) = (ofLexeme lexicon lexeme).relocate move := by
  obtain ⟨place, text⟩ := lexeme
  rw [ofLexeme, ofLexeme, Lexeme.relocate]
  split <;> rfl

theorem kept_hyphen (place : Place) (lexemes : List Lexeme) :
    kept false (⟨place, ['-']⟩ :: lexemes) = ⟨place, ['-']⟩ :: kept false lexemes := rfl

/-- The pieces of a text, all at one place. -/
theorem map_relocate_ofLexemes (lexicon : Lexicon) (text : String) :
    (ofLexemes lexicon (Lexeme.ofText text)).map (relocate fun _ => ⟨1, 1⟩) =
      (kept false (cut text.toList)).map (ofLexeme lexicon) := by
  rw [ofLexemes_ofText, cut,
    kept_map (Lexeme.relocate _) (fun _ => rfl) (fun _ => rfl), List.map_map, List.map_map]
  refine List.map_congr_left fun lexeme _ => ?_
  exact (ofLexeme_relocate lexicon _ lexeme).symm

end Piece

/-! ## Letters in either case -/

namespace Lexeme

/-- A lexeme in lower case. -/
def lowered (lexeme : Lexeme) : Lexeme :=
  { lexeme with text := lexeme.text.map Char.toLower }

/-- Only letters change when they are lowered, and they stay letters. -/
theorem toLower_eq_iff {c d : Char} (hd : d.isAlpha = false) : c.toLower = d ↔ c = d := by
  by_cases hupper : c.isUpper = true
  · -- A letter stays a letter, and cannot become or have been any other character.
    have halpha : c.isAlpha = true := by rw [Char.isAlpha, hupper]; rfl
    refine iff_of_false ?_ ?_
    · rintro rfl
      rw [Char.isAlpha_toLower_eq_isAlpha, halpha] at hd
      cases hd
    · rintro rfl
      rw [halpha] at hd
      cases hd
  · rw [Char.toLower_eq_of_not_isUpper hupper]

/-- Words have the same characters in lower case. -/
theorem isWordChar_toLower (c : Char) : isWordChar c.toLower = isWordChar c := by
  have hquote : c.toLower = '\x27' ↔ c = '\x27' := toLower_eq_iff (by decide)
  rw [Bool.eq_iff_iff]
  simp only [isWordChar, Char.isAlpha_toLower_eq_isAlpha, Bool.or_eq_true, beq_iff_eq, hquote]

/-- Blanks are the same in lower case. -/
theorem isBlank_toLower (c : Char) : isBlank c.toLower = isBlank c := by
  have hspace : c.toLower = ' ' ↔ c = ' ' := toLower_eq_iff (by decide)
  have htab : c.toLower = '\t' ↔ c = '\t' := toLower_eq_iff (by decide)
  have hreturn : c.toLower = '\r' ↔ c = '\r' := toLower_eq_iff (by decide)
  rw [Bool.eq_iff_iff]
  simp only [isBlank, Bool.or_eq_true, beq_iff_eq, hspace, htab, hreturn]

/-- Digits are the same in lower case. -/
theorem isDigit_toLower (c : Char) : c.toLower.isDigit = c.isDigit := by
  by_cases hupper : c.isUpper = true
  · have halpha : c.isAlpha = true := by rw [Char.isAlpha, hupper]; rfl
    rw [isDigit_of_isAlpha halpha,
      isDigit_of_isAlpha ((Char.isAlpha_toLower_eq_isAlpha c).trans halpha)]
  · rw [Char.toLower_eq_of_not_isUpper hupper]

/-- What is in lower case stays as it is. -/
theorem toLower_toLower (c : Char) : c.toLower.toLower = c.toLower :=
  Char.toLower_eq_of_not_isUpper (by simp [Char.isUpper_toLower_eq_false])

/-- A text is scanned as the same words in lower case. -/
theorem scan_map_toLower (line column : Nat) (text : List Char) :
    scan line column (text.map Char.toLower) = (scan line column text).map lowered := by
  have hcomp : isWordChar ∘ Char.toLower = isWordChar := funext isWordChar_toLower
  have hnewline : ∀ c : Char, c.toLower = '\n' ↔ c = '\n' := fun c => toLower_eq_iff (by decide)
  fun_induction scan line column text with
  | case1 => simp [scan]
  | case2 line column rest ih => rw [List.map_cons, scan, if_pos ((hnewline _).mpr rfl), ih]
  | case3 line column c rest hc hblank ih =>
    rw [List.map_cons, scan, if_neg (mt (hnewline c).mp hc), isBlank_toLower, if_pos hblank, ih]
  | case4 line column c rest hc hblank hword word ih =>
    rw [List.map_cons, scan, if_neg (mt (hnewline c).mp hc), isBlank_toLower, if_neg hblank,
      isWordChar_toLower, if_pos hword, List.takeWhile_map, List.dropWhile_map, hcomp]
    simp only [List.map_cons]
    rw [← List.map_cons, List.length_map, ih]
    rfl
  | case5 line column c rest hc hblank hword ih =>
    rw [List.map_cons, scan, if_neg (mt (hnewline c).mp hc), isBlank_toLower, if_neg hblank,
      isWordChar_toLower, if_neg hword, ih]
    rfl

end Lexeme

namespace Piece

open Lexeme

/-- A word that is no letter is the same in lower case. -/
theorem map_toLower_eq_singleton_iff {word : List Char} {d : Char} (hd : d.isAlpha = false) :
    word.map Char.toLower = [d] ↔ word = [d] := by
  simp [List.map_eq_singleton_iff, toLower_eq_iff hd]

/-- Commas are the same in lower case. -/
theorem isComma_lowered (lexeme : Lexeme) : lexeme.lowered.isComma = lexeme.isComma := by
  rw [Bool.eq_iff_iff, isComma, isComma, beq_iff_eq, beq_iff_eq]
  exact map_toLower_eq_singleton_iff (by decide)

theorem isDigit_lowered (lexeme : Lexeme) : isDigit lexeme.lowered = isDigit lexeme := by
  simp only [isDigit, lowered, List.any_map, Function.comp_def, isDigit_toLower]

/-- What a lexeme is does not depend on the case of its letters, as its spelling has none. -/
theorem ofLexeme_lowered (lexicon : Lexicon) (lexeme : Lexeme) :
    ofLexeme lexicon lexeme.lowered = ofLexeme lexicon lexeme := by
  have hspelling : lexeme.lowered.spelling = lexeme.spelling := by
    simp only [spelling, lowered, List.map_map, Function.comp_def, toLower_toLower]
  have hhyphen : lexeme.lowered.text = ['-'] ↔ lexeme.text = ['-'] :=
    map_toLower_eq_singleton_iff (by decide)
  have hword : lexeme.lowered.text.any isWordChar = lexeme.text.any isWordChar := by
    simp only [lowered, List.any_map, Function.comp_def, isWordChar_toLower]
  simp only [ofLexeme, hspelling, hhyphen, hword]
  rfl

/-- Pieces do not show the case of letters. -/
theorem ofLexemes_map_toLower (lexicon : Lexicon) (text : List Char) :
    (kept false (scan 1 1 (text.map Char.toLower))).map (ofLexeme lexicon) =
      (kept false (scan 1 1 text)).map (ofLexeme lexicon) := by
  rw [scan_map_toLower, kept_map lowered isComma_lowered isDigit_lowered, List.map_map]
  exact List.map_congr_left fun lexeme _ => ofLexeme_lowered lexicon lexeme

end Piece

/-! ## Texts of different layout -/

/-- Changes of a text that keep its words: letters take the other case, some layout outside
    comments takes the place of other layout, and layout on either side of a hyphen is left out. -/
inductive Relayout : List Char → List Char → Prop where
  | recase {text text' : List Char} (h : text.map Char.toLower = text'.map Char.toLower) :
      Relayout text text'
  | replace {before layout layout' rest : List Char} (houtside : Lexeme.IsOutside before)
      (h : Lexeme.IsLayout layout) (h' : Lexeme.IsLayout layout') (hne : layout ≠ [])
      (hne' : layout' ≠ []) : Relayout (before ++ (layout ++ rest)) (before ++ (layout' ++ rest))
  | hyphen {before layout layout' rest : List Char} (houtside : Lexeme.IsOutside before)
      (h : Lexeme.IsLayout layout) (h' : Lexeme.IsLayout layout') :
      Relayout (before ++ (layout ++ '-' :: (layout' ++ rest))) (before ++ '-' :: rest)

/-- What is kept of a text decides how it is read. -/
theorem unplaced_ofText_congr (lexicon : Lexicon) {text text' : String}
    (h : (Piece.kept false (Lexeme.cut text.toList)).map (Piece.ofLexeme lexicon) =
      (Piece.kept false (Lexeme.cut text'.toList)).map (Piece.ofLexeme lexicon)) :
    unplaced (Token.ofText lexicon text) = unplaced (Token.ofText lexicon text') := by
  rw [← Piece.map_relocate_ofLexemes, ← Piece.map_relocate_ofLexemes] at h
  exact unplaced_gather_congr h

theorem Relayout.unplaced_eq (lexicon : Lexicon) {text text' : List Char}
    (h : Relayout text text') :
    unplaced (Token.ofText lexicon (.ofList text)) =
      unplaced (Token.ofText lexicon (.ofList text')) := by
  have hhyphen : ∀ rest, Lexeme.EndsWord ('-' :: rest) := by
    intro rest c hc
    obtain rfl := Option.some.inj hc
    rfl
  cases h with
  | recase h =>
    have hpieces := Piece.ofLexemes_map_toLower lexicon text
    rw [h, Piece.ofLexemes_map_toLower] at hpieces
    rw [Token.ofText, Token.ofText, Piece.ofLexemes_ofText, Piece.ofLexemes_ofText,
      String.toList_ofList, String.toList_ofList, hpieces]
  | replace houtside h h' hne hne' =>
    refine unplaced_ofText_congr lexicon ?_
    rw [String.toList_ofList, String.toList_ofList,
      Piece.kept_cut_append houtside h (.inl hne), Piece.kept_cut_append houtside h' (.inl hne')]
  | hyphen houtside h h' =>
    refine unplaced_ofText_congr lexicon ?_
    rw [String.toList_ofList, String.toList_ofList,
      Piece.kept_cut_append houtside h (.inr (hhyphen _)), Lexeme.cut_hyphen,
      Piece.kept_hyphen, Piece.kept_cut_layout h', ← Piece.kept_hyphen, ← Lexeme.cut_hyphen,
      ← Piece.kept_cut_append houtside .nil (.inr (hhyphen _)), List.nil_append]

/-- The layout of a text never matters to its reader.  Texts that come from each other by such
    changes, in any number and either way, have the same tokens, or the same faults, but for their
    places. -/
theorem layout_never_matters (lexicon : Lexicon) {text text' : String}
    (h : Relation.EqvGen Relayout text.toList text'.toList) :
    unplaced (Token.ofText lexicon text) = unplaced (Token.ofText lexicon text') := by
  have hlists : ∀ {text text' : List Char}, Relation.EqvGen Relayout text text' →
      unplaced (Token.ofText lexicon (.ofList text)) =
        unplaced (Token.ofText lexicon (.ofList text')) := by
    intro text text' h
    induction h with
    | rel _ _ h => exact h.unplaced_eq lexicon
    | refl => rfl
    | symm _ _ _ ih => exact ih.symm
    | trans _ _ _ _ _ ih ih' => exact ih.trans ih'
  simpa using hlists h

/-- Two words in capitals that a hyphen joins over a comment and two lines, and number words that
    are no number on either side of a line feed. -/
theorem layout_never_matters_moonlight :
    Relation.EqvGen Relayout "MOON -,x,\nLight".toList "moon-light".toList ∧
    unplaced (Token.ofText .empty "MOON -,x,\nLight") =
      .ok [("moon-light", .variable .earth)] ∧
    unplaced (Token.ofText .empty "MOON -,x,\nLight") =
      unplaced (Token.ofText .empty "moon-light") ∧
    Relation.EqvGen Relayout "Two-\nten ,y,".toList "two-ten\t".toList ∧
    unplaced (Token.ofText .empty "Two-\nten ,y,") = .error [.unjoinable "two" "ten"] ∧
    unplaced (Token.ofText .empty "Two-\nten ,y,") =
      unplaced (Token.ofText .empty "two-ten\t") := by
  have hblank : Lexeme.IsLayout [' '] := .gap rfl .nil
  have hline : Lexeme.IsLayout ['\n'] := .gap rfl .nil
  have htab : Lexeme.IsLayout ['\t'] := .gap rfl .nil
  have hcomment : Lexeme.IsLayout (',' :: (['x'] ++ ',' :: ['\n'])) :=
    .comment (by decide) hline
  have hlast : Lexeme.IsLayout (' ' :: ',' :: (['y'] ++ ',' :: [])) :=
    .gap rfl (.comment (by decide) .nil)
  have hmoon : Relation.EqvGen Relayout "MOON -,x,\nLight".toList "moon-light".toList := by
    refine .trans _ "moon -,x,\nlight".toList _ (.rel _ _ (.recase (by decide))) (.rel _ _ ?_)
    have hhyphen : Lexeme.IsOutside "moon".toList := by decide
    exact @Relayout.hyphen _ _ _ "light".toList hhyphen hblank hcomment
  have hten : Relation.EqvGen Relayout "Two-\nten ,y,".toList "two-ten\t".toList := by
    refine .trans _ "two-\nten ,y,".toList _ (.rel _ _ (.recase (by decide))) ?_
    refine .trans _ "two-ten ,y,".toList _ (.rel _ _ ?_) (.rel _ _ ?_)
    · have hhyphen : Lexeme.IsOutside "two".toList := by decide
      exact @Relayout.hyphen _ _ _ "ten ,y,".toList hhyphen .nil hline
    · have hend : Lexeme.IsOutside "two-ten".toList := by decide
      exact @Relayout.replace _ _ _ [] hend hlast htab (List.cons_ne_nil _ _)
        (List.cons_ne_nil _ _)
  exact ⟨hmoon, by decide +kernel, layout_never_matters _ hmoon, hten, by decide +kernel,
    layout_never_matters _ hten⟩

end Verse
