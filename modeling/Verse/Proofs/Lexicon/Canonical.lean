import Verse.Proofs.Lexicon.Dictionary
import Verse.Proofs.Lexicon.Format
import Verse.Proofs.Machine.Essence
import Verse.Token.Reading

/-!
# Words and their base words

The variable of a word is kept under its base word.  A look-up follows one link: the base word is
taken as it stands, whatever the dictionary says of it in turn.  So a word and its base word name
the same variable unless the base word has another base word itself.

* `baseOf?`, `IsRooted`             the link of a word, and words whose links end after one
* `canonical_canonical_iff`         for such words, and no others, two look-ups are as good as one
* `Respells`                        base words written in place of words
* `map_variableName?_iff`           whether the same variables are named then
* `canonical_follows_one_link`      all of it, for every dictionary
-/

namespace Verse.Lexicon

/-! ## Links -/

/-- The base word that the lexicon knows for a word, if it is another word. -/
def baseOf? (lexicon : Lexicon) (word : String) : Option String :=
  (lexicon.get? word).bind fun entry => entry.base.word?

/-- The base word of a word, if there is one, has no base word but itself. -/
def IsRooted (lexicon : Lexicon) (word : String) : Prop :=
  ∀ base next, lexicon.baseOf? word = some base → lexicon.baseOf? base = some next → next = base

variable {lexicon : Lexicon} {word base : String}

/-- A linked word is called by its base word. -/
theorem canonical_of_baseOf? (h : lexicon.baseOf? word = some base) :
    lexicon.canonical word = base := by
  rw [canonical_eq, ← baseOf?, h, Option.getD_some]

/-- A word without a link is called by itself. -/
theorem canonical_of_baseOf?_eq_none (h : lexicon.baseOf? word = none) :
    lexicon.canonical word = word := by
  rw [canonical_eq, ← baseOf?, h, Option.getD_none]

/-- Looking the name up once more changes nothing just if the link goes no further. -/
theorem canonical_canonical_iff :
    lexicon.canonical (lexicon.canonical word) = lexicon.canonical word ↔
      lexicon.IsRooted word := by
  cases hword : lexicon.baseOf? word with
  | none => simp [canonical_of_baseOf?_eq_none hword, IsRooted, hword]
  | some base =>
    have hrooted : lexicon.IsRooted word ↔
        ∀ next, lexicon.baseOf? base = some next → next = base := by
      refine ⟨fun h next => h base next hword, fun h other next hother => ?_⟩
      obtain rfl := Option.some.inj (hword.symm.trans hother)
      exact h next
    rw [canonical_of_baseOf? hword, hrooted]
    cases hbase : lexicon.baseOf? base with
    | none => simp [canonical_of_baseOf?_eq_none hbase]
    | some next => simp [canonical_of_baseOf? hbase]

/-- The link of a word is the one in the last line for it. -/
theorem baseOf?_of_ofText {text : String} (h : ofText text = .ok lexicon)
    (hword : Text.lower word = word) :
    lexicon.baseOf? word = some base ↔
      ∃ entry, Gives text word entry ∧ entry.base = .word base := by
  have hlink : ∀ entry : Entry, entry.base.word? = some base ↔ entry.base = .word base := by
    intro entry
    cases entry.base <;> simp [BaseWord.word?]
  rw [baseOf?, Option.bind_eq_some_iff]
  refine exists_congr fun entry => ?_
  rw [← get?_of_ofText h, hword, hlink]

/-! ## Programs that write base words -/

/-- Two tokens, of which the second one writes the base word of the first one, if that names a
    variable.  It names a variable again, with the element that its own spelling gives it.  Tokens
    of other kinds mean the same. -/
inductive Respells (lexicon : Lexicon) (token token' : Token) : Prop
  | named (element element' : Element) (hkind : token.kind = .variable element)
      (hkind' : token'.kind = .variable element')
      (htext : token'.text = lexicon.canonical token.text)
  | other (hother : ∀ element, token.kind ≠ .variable element) (hkind : token'.kind = token.kind)

/-- The word of a token is rooted, if it names a variable. -/
def NamesRooted (lexicon : Lexicon) (token : Token) : Prop :=
  ∀ element, token.kind = .variable element → lexicon.IsRooted token.text

/-- The program that some tokens are loaded as, the last one first. -/
def program (lexicon : Lexicon) (tokens : List Token) : List Rung :=
  (tokens.map (Rung.ofToken lexicon)).reverse

section

variable {token token' : Token} {tokens tokens' : List Token}

/-- A variable is the cell of the name of its word. -/
theorem ofToken_of_variable {element : Element} (h : token.kind = .variable element) :
    Cell.ofToken lexicon token = .variable (lexicon.canonical token.text) := by
  rw [Cell.ofToken, h]

/-- For tokens of other kinds the cell goes by the kind alone. -/
theorem ofToken_of_ne_variable (h : ∀ element, token.kind ≠ .variable element)
    (hkind : token'.kind = token.kind) :
    Cell.ofToken lexicon token' = Cell.ofToken lexicon token := by
  cases hcase : token.kind with
  | «variable» element => exact absurd hcase (h element)
  | reserved _ | number _ | punctuation =>
    rw [hcase] at hkind
    rw [Cell.ofToken, Cell.ofToken, hkind, hcase]

/-- The base word stands for the same cell just if the word is rooted. -/
theorem Respells.ofToken_iff (h : lexicon.Respells token token') :
    Cell.ofToken lexicon token' = Cell.ofToken lexicon token ↔ lexicon.NamesRooted token := by
  -- By kinds: variables compare their names, and other tokens have no name to compare.
  cases h with
  | named element element' hkind hkind' htext =>
    rw [ofToken_of_variable hkind, ofToken_of_variable hkind', htext, Cell.variable.injEq,
      canonical_canonical_iff]
    exact ⟨fun hrooted _ _ => hrooted, fun hnames => hnames element hkind⟩
  | other hother hkind =>
    refine iff_of_true (ofToken_of_ne_variable hother hkind) ?_
    exact fun element hvariable => absurd hvariable (hother element)

/-- It names the same variable, if any, under the same condition. -/
theorem Respells.variableName?_iff (h : lexicon.Respells token token') :
    (Rung.ofToken lexicon token').variableName? = (Rung.ofToken lexicon token).variableName? ↔
      lexicon.NamesRooted token := by
  rw [← h.ofToken_iff]
  refine ⟨fun hname => ?_, fun hcell => congrArg (fun cell =>
    Rung.variableName? { Rung.ofToken lexicon token with cell }) hcell⟩
  cases h with
  | named element element' hkind hkind' htext =>
    simp only [Rung.variableName?, Rung.ofToken, ofToken_of_variable hkind,
      ofToken_of_variable hkind'] at hname
    -- Cells of variables that name the same are the same.
    rw [ofToken_of_variable hkind, ofToken_of_variable hkind', Option.some.inj hname]
  | other hother hkind => exact ofToken_of_ne_variable hother hkind

/-- A program that writes base words names the same variables, rung for rung, just if all words in
    it are rooted. -/
theorem map_variableName?_iff (h : List.Forall₂ lexicon.Respells tokens tokens') :
    (lexicon.program tokens').map Rung.variableName? =
      (lexicon.program tokens).map Rung.variableName? ↔
    ∀ token ∈ tokens, lexicon.NamesRooted token := by
  rw [program, program, List.map_reverse, List.map_reverse, List.reverse_inj]
  induction h with
  | nil => simp
  | cons htoken _ ih =>
    simp only [List.map_cons, List.cons.injEq, List.forall_mem_cons, ih,
      htoken.variableName?_iff]

/-- If it also gives them the elements that they had, it runs as before. -/
theorem alike_of_respells (h : List.Forall₂ lexicon.Respells tokens tokens')
    (hrooted : ∀ token ∈ tokens, lexicon.NamesRooted token)
    (hkinds : tokens'.map Token.kind = tokens.map Token.kind) (m : Machine) (n : Nat) :
    Machine.Alike (m.pointAt (lexicon.program tokens) n).machine
      (m.pointAt (lexicon.program tokens') n).machine := by
  have hessence : (lexicon.program tokens').map Rung.essence =
      (lexicon.program tokens).map Rung.essence := by
    rw [program, program, List.map_reverse, List.map_reverse, List.reverse_inj]
    -- Token by token: the cells agree as the word is rooted, and the elements by the kinds.
    induction h with
    | nil => rfl
    | cons htoken _ ih =>
      obtain ⟨htokenRooted, hrooted⟩ := List.forall_mem_cons.mp hrooted
      obtain ⟨hkind, hkinds⟩ := List.cons.inj hkinds
      simp only [List.map_cons, ih hrooted hkinds, List.cons.injEq, and_true]
      exact Prod.ext (htoken.ofToken_iff.mpr htokenRooted) (congrArg Token.Kind.element hkind)
  exact (Machine.lockstep_alike.pointAt (.intro hessence rfl rfl) n).machine

end

/-- What a dictionary makes of base words.  The link of a word is the base word in the last line for
    it, and a look-up follows that one link.  A second look-up changes nothing just if the base word
    has no base word but itself.

    So a variable that is written with the base word of its word is the same variable just under
    that condition.  A program that writes base words in place of words addresses the same variables
    just if all its words meet it.  A variable may start with another element then, because the
    element goes by the spelling.  If none does, the two programs run in step. -/
theorem canonical_follows_one_link {text : String} {lexicon : Lexicon}
    (h : ofText text = .ok lexicon) :
    (∀ word base, Text.lower word = word → (lexicon.baseOf? word = some base ↔
      ∃ entry, Gives text word entry ∧ entry.base = .word base)) ∧
    (∀ word, lexicon.canonical word = (lexicon.baseOf? word).getD word) ∧
    (∀ word, lexicon.canonical (lexicon.canonical word) = lexicon.canonical word ↔
      lexicon.IsRooted word) ∧
    (∀ token token', lexicon.Respells token token' →
      (Cell.ofToken lexicon token' = Cell.ofToken lexicon token ↔ lexicon.NamesRooted token)) ∧
    ∀ tokens tokens', List.Forall₂ lexicon.Respells tokens tokens' →
      ((lexicon.program tokens').map Rung.variableName? =
          (lexicon.program tokens).map Rung.variableName? ↔
        ∀ token ∈ tokens, lexicon.NamesRooted token) ∧
      ((∀ token ∈ tokens, lexicon.NamesRooted token) →
        tokens'.map Token.kind = tokens.map Token.kind → ∀ (m : Machine) n,
          Machine.Alike (m.pointAt (lexicon.program tokens) n).machine
            (m.pointAt (lexicon.program tokens') n).machine) :=
  ⟨fun _ _ => baseOf?_of_ofText h, canonical_eq lexicon, fun _ => canonical_canonical_iff,
    fun _ _ => Respells.ofToken_iff, fun _ _ hrespells =>
      ⟨map_variableName?_iff hrespells, alike_of_respells hrespells⟩⟩

/-- In two texts that are read with one dictionary, the variable of rivers is that of a river.  The
    dictionary gives both words one element, so the two programs run in step. -/
theorem canonical_follows_one_link_rivers :
    ∃ lexicon tokens tokens', ofText "rivers river water 2\nriver . water 2\n" = .ok lexicon ∧
      Token.ofText lexicon "Rivers glow." = .ok tokens ∧
      Token.ofText lexicon "River glow." = .ok tokens' ∧
      lexicon.canonical (lexicon.canonical "rivers") = lexicon.canonical "rivers" ∧
      (lexicon.program tokens').map Rung.variableName? =
        (lexicon.program tokens).map Rung.variableName? ∧
      ∀ (m : Machine) n, Machine.Alike (m.pointAt (lexicon.program tokens) n).machine
        (m.pointAt (lexicon.program tokens') n).machine := by
  let rivers : List Token := [⟨⟨1, 1⟩, "rivers", .variable .water⟩,
    ⟨⟨1, 8⟩, "glow", .variable .earth⟩, ⟨⟨1, 12⟩, ".", .punctuation⟩]
  let river : List Token := [⟨⟨1, 1⟩, "river", .variable .water⟩,
    ⟨⟨1, 7⟩, "glow", .variable .earth⟩, ⟨⟨1, 11⟩, ".", .punctuation⟩]
  have hlinks : (ofText "rivers river water 2\nriver . water 2\n").toOption.map (fun lexicon =>
      ((Token.ofText lexicon "Rivers glow.").toOption,
        (Token.ofText lexicon "River glow.").toOption,
        ["rivers", "river", "glow"].map lexicon.baseOf?)) =
      some (some rivers, some river, [some "river", none, none]) := by
    decide +kernel
  obtain ⟨lexicon, hread, hlinks⟩ := exists_of_toOption_map hlinks
  simp only [Prod.mk.injEq, List.map_cons, List.map_nil, List.cons.injEq, and_true] at hlinks
  obtain ⟨htokens, htokens', hrivers, hriver, hglow⟩ := hlinks
  obtain ⟨-, hcanonical, htwice, -, hprograms⟩ := canonical_follows_one_link hread
  have hrespells : List.Forall₂ lexicon.Respells rivers river := by
    refine .cons (.named _ _ rfl rfl ?_) (.cons (.named _ _ rfl rfl ?_)
      (.cons (.other (fun _ => by simp) rfl) .nil))
    · rw [hcanonical, hrivers, Option.getD_some]
    · rw [hcanonical, hglow, Option.getD_none]
  -- Neither a river nor what glows has another base word.
  have hrooted : lexicon.IsRooted "rivers" := by
    intro base next hbase hnext
    obtain rfl := Option.some.inj (hrivers.symm.trans hbase)
    cases hriver.symm.trans hnext
  have hnames : ∀ token ∈ rivers, lexicon.NamesRooted token := by
    simp only [rivers, List.forall_mem_cons]
    refine ⟨fun _ _ => hrooted, fun _ _ base next hbase _ => ?_, fun _ hkind => ?_,
      List.forall_mem_nil _⟩
    · cases hglow.symm.trans hbase
    · cases hkind
  obtain ⟨hsame, halike⟩ := hprograms rivers river hrespells
  exact ⟨lexicon, rivers, river, hread, eq_ok_of_toOption htokens,
    eq_ok_of_toOption htokens', (htwice "rivers").mpr hrooted, hsame.mpr hnames,
    halike hnames rfl⟩

/-- The base word of streams is stream, but their variable is not that of a stream, which is kept
    under its own base word. -/
theorem chained_base_words_split_a_variable :
    ∃ lexicon, ofText "streams stream _\nstream river _" = .ok lexicon ∧
      lexicon.canonical "streams" = "stream" ∧
      lexicon.canonical (lexicon.canonical "streams") ≠ lexicon.canonical "streams" := by
  have hlookups : (ofText "streams stream _\nstream river _").toOption.map
      (fun lexicon => (lexicon.canonical "streams", lexicon.canonical "stream")) =
      some ("stream", "river") := by
    decide +kernel
  obtain ⟨lexicon, hread, hlookups⟩ := exists_of_toOption_map hlookups
  obtain ⟨hstreams, hstream⟩ := Prod.mk.inj hlookups
  refine ⟨lexicon, hread, hstreams, ?_⟩
  rw [hstreams, hstream]
  decide

end Verse.Lexicon
