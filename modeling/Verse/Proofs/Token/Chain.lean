import Mathlib.Data.List.Forall2
import Verse.Proofs.Number.Pass
import Verse.Token.Reading

/-!
# Chains of words

A chain is a word with all the words that hyphens join to it.  A single word is its own token.
Of several words a punctuation mark is a fault, number words make one number if they can, and
any others name one variable.

* `Chain.reading_token`      the four ways in which a chain is read
* `Chain.exists_token_iff`   the chains that make a token
* `Chain.makes_of_token`     place, text, value and element of the token
* `Chain.place_of_fault`     a fault stands at a mark or a number word of the chain
-/

namespace Verse

/-! ## Lists side by side -/

section

variable {α β γ : Type} {as : List α} {bs : List β}

/-- Each of some things is related to another just if there is a list of these others. -/
theorem exists_forall₂_iff {R : α → β → Prop} :
    (∃ bs, List.Forall₂ R as bs) ↔ ∀ a ∈ as, ∃ b, R a b := by
  induction as with
  | nil => simp
  | cons a as ih =>
    simp only [List.forall₂_cons_left_iff, List.forall_mem_cons, ← ih]
    constructor
    · rintro ⟨-, b, bs, hb, hbs, -⟩
      exact ⟨⟨b, hb⟩, bs, hbs⟩
    · rintro ⟨⟨b, hb⟩, bs, hbs⟩
      exact ⟨b :: bs, b, bs, hb, hbs, rfl⟩

/-- What is the same for related things is the same for related lists. -/
theorem map_eq_of_forall₂ {R : α → β → Prop} {f : α → γ} {g : β → γ}
    (hR : ∀ a b, R a b → f a = g b) (h : List.Forall₂ R as bs) : as.map f = bs.map g := by
  rw [← List.forall₂_eq_eq_eq, List.forall₂_map_left_iff, List.forall₂_map_right_iff]
  exact h.imp hR

end

/-! ## Number words -/

/-- Whether a part is a number word. -/
def Part.isNumber (part : Part) : Bool :=
  part.term?.isSome

/-- A part that is a number word makes a term. -/
def Part.Makes (part : Part) (term : Number.Term) : Prop :=
  part.term? = some term

theorem Part.isNumber_iff {part : Part} : part.isNumber = true ↔ ∃ term, part.Makes term :=
  Option.isSome_iff_exists

/-- The term of a part is that of its number, and no other part makes one. -/
theorem Part.Makes.eq_ofValue {part : Part} {term : Number.Term} (h : part.Makes term) :
    ∃ value, part.word = .number value ∧ term = .ofValue part.place part.text value := by
  rw [Makes, term?] at h
  cases hword : part.word with
  | number value =>
    rw [hword] at h
    exact ⟨value, rfl, (Option.some.inj h).symm⟩
  | _ =>
    rw [hword] at h
    cases h

/-- A number word is no punctuation mark. -/
theorem Part.Makes.isMark {part : Part} {term : Number.Term} (h : part.Makes term) :
    part.isMark = false := by
  obtain ⟨value, hword, -⟩ := h.eq_ofValue
  rw [Part.isMark, hword]
  rfl

theorem Part.Makes.text {part : Part} {term : Number.Term} (h : part.Makes term) :
    term.text = part.text := by
  obtain ⟨value, -, rfl⟩ := h.eq_ofValue
  rfl

theorem Part.Makes.place {part : Part} {term : Number.Term} (h : part.Makes term) :
    term.place = part.place := by
  obtain ⟨value, -, rfl⟩ := h.eq_ofValue
  rfl

/-- The token of a number. -/
def Token.ofTerm (number : Number.Term) : Token :=
  { place := number.place, text := number.text, kind := .number (Float.ofNat number.value) }

theorem Part.Makes.token {part : Part} {term : Number.Term} (h : part.Makes term) :
    part.token = Token.ofTerm term := by
  obtain ⟨value, hword, rfl⟩ := h.eq_ofValue
  rw [Part.token, hword]
  rfl

section

variable {parts : List Part} {terms : List Number.Term}

/-- The terms of number words, all of them together. -/
theorem exists_forall₂_makes_iff :
    (∃ terms, List.Forall₂ Part.Makes parts terms) ↔ ∀ part ∈ parts, part.isNumber = true := by
  simp only [Part.isNumber_iff, exists_forall₂_iff]

theorem isNumber_of_makes (h : List.Forall₂ Part.Makes parts terms) :
    ∀ part ∈ parts, part.isNumber = true :=
  exists_forall₂_makes_iff.mp ⟨terms, h⟩

theorem not_exists_isNumber (h : ∀ part ∈ parts, part.isNumber = true) :
    ¬ ∃ part ∈ parts, part.isNumber = false := by
  simpa using h

/-- The list of terms that the chain is read with, told by each of its parts. -/
theorem mapM_term?_eq_some_iff :
    parts.mapM Part.term? = some terms ↔ List.Forall₂ Part.Makes parts terms := by
  induction parts generalizing terms with
  | nil => simp [eq_comm]
  | cons part parts ih =>
    simp only [List.mapM_cons, Option.bind_eq_bind, Option.bind_eq_some_iff, Option.pure_def,
      Option.some.injEq, List.forall₂_cons_left_iff, ih]
    constructor
    · rintro ⟨term, hterm, others, hothers, rfl⟩
      exact ⟨term, others, hterm, hothers, rfl⟩
    · rintro ⟨term, others, hterm, hothers, rfl⟩
      exact ⟨term, hterm, others, hothers, rfl⟩

/-- One word that is no number is enough to have no terms. -/
theorem mapM_term?_eq_none (h : ∃ part ∈ parts, part.isNumber = false) :
    parts.mapM Part.term? = none := by
  obtain ⟨part, hpart, hnumber⟩ := h
  cases hterms : parts.mapM Part.term? with
  | none => rfl
  | some terms =>
    -- If there were terms, the word would have one of them.
    have hall := isNumber_of_makes (mapM_term?_eq_some_iff.mp hterms) part hpart
    rw [hnumber] at hall
    cases hall

/-- Without a mark there is no first mark either. -/
theorem find?_isMark (h : ∀ part ∈ parts, part.isMark = false) :
    parts.find? (·.isMark) = none :=
  List.find?_eq_none.mpr fun part hpart => by simp [h part hpart]

theorem isMark_of_makes (h : List.Forall₂ Part.Makes parts terms) :
    ∀ part ∈ parts, part.isMark = false := by
  intro part hpart
  obtain ⟨term, hterm⟩ := Part.isNumber_iff.mp (isNumber_of_makes h part hpart)
  exact hterm.isMark

end

/-! ## Several words -/

section

variable {first : Part} {parts : List Part} {term : Number.Term} {terms : List Number.Term}

/-- The first mark of a chain is what its fault speaks of. -/
theorem chainToken_of_mark (h : ∃ part ∈ first :: parts, part.isMark = true) :
    ∃ mark ∈ first :: parts, mark.isMark = true ∧
      chainToken first parts = .error ⟨mark.place, .hyphenatedMark mark.text⟩ := by
  obtain ⟨mark, hmark⟩ := Option.isSome_iff_exists.mp (List.find?_isSome.mpr h)
  refine ⟨mark, List.mem_of_find?_eq_some hmark, by simpa using List.find?_some hmark, ?_⟩
  rw [chainToken, hmark]

/-- The numbers of a chain are combined. -/
theorem chainToken_of_terms (hfirst : first.Makes term)
    (h : List.Forall₂ Part.Makes parts terms) :
    chainToken first parts = (Number.combine .saturating term terms).map Token.ofTerm := by
  rw [chainToken, find?_isMark (isMark_of_makes (.cons hfirst h)), hfirst,
    mapM_term?_eq_some_iff.mpr h]
  rfl

/-- A word that is neither mark nor number makes a name of the whole chain. -/
theorem chainToken_of_name (hmarks : ∀ part ∈ first :: parts, part.isMark = false)
    (h : ∃ part ∈ first :: parts, part.isNumber = false) :
    chainToken first parts = .ok (variableOf first parts) := by
  have hterms := mapM_term?_eq_none h
  rw [chainToken, find?_isMark hmarks]
  -- It may be that only the first word is a number, and then the others are not all numbers.
  cases hfirst : first.term? with
  | none => rfl
  | some term =>
    have hparts : parts.mapM Part.term? = none := by
      rw [Option.eq_none_iff_forall_ne_some]
      simpa [hfirst] using hterms
    rw [hparts]

end

/-! ## Chains -/

/-- Words joined by hyphens: the first word, and each of the others with the place of the
    hyphen before it. -/
structure Chain where
  first : Part
  links : List (Place × Part)

namespace Chain

/-- The words of a chain. -/
def parts (chain : Chain) : List Part :=
  chain.first :: chain.links.map (·.2)

/-- The token that a chain makes, or what is wrong with it. -/
def token (chain : Chain) : Except Diagnostic Token :=
  if chain.links.isEmpty then .ok chain.first.token
  else chainToken chain.first (chain.links.map (·.2))

/-- A chain of one word, or of several words none of which is a punctuation mark. -/
def IsJoinable (chain : Chain) : Prop :=
  chain.links ≠ [] → ∀ part ∈ chain.parts, part.isMark = false

/-- The words of a chain are number words, and they are read as one number. -/
def ReadAs (chain : Chain) (number : Number.Term) : Prop :=
  ∃ term terms, List.Forall₂ Part.Makes chain.parts (term :: terms) ∧
    Number.combine .saturating term terms = .ok number

/-- The element that all words of a chain have, or earth if two of them differ. -/
def HasElement (chain : Chain) (element : Element) : Prop :=
  (∀ part ∈ chain.parts, part.element = element) ∨
    (∃ left ∈ chain.parts, ∃ right ∈ chain.parts, left.element ≠ right.element) ∧
      element = .earth

/-- The token of a chain stands at the place of the first word and is spelled with the hyphens.  A
    single word is its own token, several number words are one number, and any others are one
    variable. -/
structure Makes (chain : Chain) (token : Token) : Prop where
  place : token.place = chain.first.place
  text : token.text = "-".intercalate (chain.parts.map (·.text))
  single : chain.links = [] → token.kind = chain.first.word.kind
  number : chain.links ≠ [] → (∀ part ∈ chain.parts, part.isNumber = true) →
    ∃ number, chain.ReadAs number ∧ token.kind = .number (Float.ofNat number.value)
  name : chain.links ≠ [] → (∃ part ∈ chain.parts, part.isNumber = false) →
    ∃ element, token.kind = .variable element ∧ token.kind.value = 0.0 ∧ chain.HasElement element

/-- The ways in which a chain is read: as a single word, with a mark among several, as number
    words, or as other words. -/
inductive Reading (chain : Chain) : Except Diagnostic Token → Prop where
  | single (hlinks : chain.links = []) : Reading chain (.ok chain.first.token)
  | mark (hlinks : chain.links ≠ []) (mark : Part) (hmem : mark ∈ chain.parts)
      (hmark : mark.isMark = true) :
      Reading chain (.error ⟨mark.place, .hyphenatedMark mark.text⟩)
  | number (hlinks : chain.links ≠ []) (term : Number.Term) (terms : List Number.Term)
      (hterms : List.Forall₂ Part.Makes chain.parts (term :: terms)) :
      Reading chain ((Number.combine .saturating term terms).map Token.ofTerm)
  | name (hlinks : chain.links ≠ []) (hmarks : ∀ part ∈ chain.parts, part.isMark = false)
      (hname : ∃ part ∈ chain.parts, part.isNumber = false) :
      Reading chain (.ok (variableOf chain.first (chain.links.map (·.2))))

theorem reading_token (chain : Chain) : chain.Reading chain.token := by
  by_cases hlinks : chain.links = []
  · rw [token, if_pos (List.isEmpty_iff.mpr hlinks)]
    exact .single hlinks
  rw [token, if_neg (by simpa using hlinks)]
  -- A mark is looked for first, so number words are only combined where there is none.
  by_cases hmark : ∃ part ∈ chain.parts, part.isMark = true
  · obtain ⟨mark, hmem, hmark, htoken⟩ := chainToken_of_mark hmark
    rw [htoken]
    exact .mark hlinks mark hmem hmark
  by_cases hnumber : ∀ part ∈ chain.parts, part.isNumber = true
  · obtain ⟨terms, hterms⟩ := exists_forall₂_makes_iff.mpr hnumber
    cases hterms with
    | cons hfirst hrest =>
      rw [chainToken_of_terms hfirst hrest]
      exact .number hlinks _ _ (.cons hfirst hrest)
  · have hmarks : ∀ part ∈ chain.parts, part.isMark = false := by simpa using hmark
    have hname : ∃ part ∈ chain.parts, part.isNumber = false := by simpa using hnumber
    rw [chainToken_of_name hmarks hname]
    exact .name hlinks hmarks hname

section

variable {chain : Chain}

theorem ReadAs.text {number : Number.Term} (h : chain.ReadAs number) :
    number.text = "-".intercalate (chain.parts.map (·.text)) := by
  obtain ⟨term, terms, hterms, hcombine⟩ := h
  rw [(Number.combine_keeps hcombine).1, map_eq_of_forall₂ (fun _ _ h => h.text.symm) hterms]
  rfl

theorem ReadAs.place {number : Number.Term} (h : chain.ReadAs number) :
    number.place = chain.first.place := by
  obtain ⟨term, terms, hterms, hcombine⟩ := h
  obtain ⟨hfirst, -⟩ := List.forall₂_cons.mp hterms
  rw [(Number.combine_keeps hcombine).2, hfirst.place]

theorem exists_readAs_of_single (hlinks : chain.links = [])
    (h : ∀ part ∈ chain.parts, part.isNumber = true) : ∃ number, chain.ReadAs number := by
  obtain ⟨term, hterm⟩ := Part.isNumber_iff.mp (h chain.first List.mem_cons_self)
  refine ⟨term, term, [], ?_, rfl⟩
  rw [parts, hlinks]
  exact .cons hterm .nil

theorem hasElement_variableOf (chain : Chain) :
    ∃ element, (variableOf chain.first (chain.links.map (·.2))).kind = .variable element ∧
      chain.HasElement element := by
  refine ⟨_, rfl, ?_⟩
  split
  case isTrue h =>
    refine .inl fun part hpart => ?_
    obtain rfl | hpart := List.mem_cons.mp hpart
    · rfl
    · exact eq_of_beq (List.all_eq_true.mp h part hpart)
  case isFalse h =>
    obtain ⟨part, hpart, hne⟩ := List.all_eq_false.mp (eq_false_of_ne_true h)
    refine .inr ⟨⟨part, List.mem_cons_of_mem _ hpart, chain.first, List.mem_cons_self, ?_⟩, rfl⟩
    exact fun heq => hne (beq_iff_eq.mpr heq)

/-- The chains that make a token: no mark is joined, and number words make a number. -/
theorem exists_token_iff : (∃ token, chain.token = .ok token) ↔
    chain.IsJoinable ∧ ((∀ part ∈ chain.parts, part.isNumber = true) →
      ∃ number, chain.ReadAs number) := by
  have hreading := chain.reading_token
  generalize chain.token = result at hreading
  cases hreading with
  | single hlinks =>
    exact iff_of_true ⟨_, rfl⟩ ⟨fun h => absurd hlinks h, exists_readAs_of_single hlinks⟩
  | mark hlinks mark hmem hmark =>
    refine iff_of_false ?_ fun h => ?_
    · rintro ⟨token, h⟩
      cases h
    · have hunmarked := h.1 hlinks mark hmem
      rw [hmark] at hunmarked
      cases hunmarked
  | number hlinks term terms hterms =>
    constructor
    · rintro ⟨token, htoken⟩
      obtain ⟨number, hnumber, -⟩ := map_eq_ok_iff.mp htoken
      exact ⟨fun _ => isMark_of_makes hterms, fun _ => ⟨number, term, terms, hterms, hnumber⟩⟩
    · rintro ⟨-, hread⟩
      obtain ⟨number, term', terms', hterms', hnumber⟩ := hread (isNumber_of_makes hterms)
      -- The words make no other terms.
      have heq := (mapM_term?_eq_some_iff.mpr hterms).symm.trans
        (mapM_term?_eq_some_iff.mpr hterms')
      obtain ⟨rfl, rfl⟩ := List.cons.inj (Option.some.inj heq)
      exact ⟨Token.ofTerm number, map_eq_ok_iff.mpr ⟨number, hnumber, rfl⟩⟩
  | name hlinks hmarks hname =>
    refine iff_of_true ⟨_, rfl⟩ ⟨fun _ => hmarks, fun h => ?_⟩
    exact absurd hname (not_exists_isNumber h)

/-- Place, text, value and element of a chain's token. -/
theorem makes_of_token {token : Token} (h : chain.token = .ok token) : chain.Makes token := by
  have hreading := chain.reading_token
  rw [h] at hreading
  generalize hresult : Except.ok token = result at hreading
  cases hreading with
  | single hlinks =>
    obtain rfl := Except.ok.inj hresult
    refine ⟨rfl, ?_, fun _ => rfl, fun h => absurd hlinks h, fun h => absurd hlinks h⟩
    rw [parts, hlinks]
    simp [Part.token]
  | mark => cases hresult
  | number hlinks term terms hterms =>
    obtain ⟨number, hcombine, rfl⟩ := map_eq_ok_iff.mp hresult.symm
    have hread : chain.ReadAs number := ⟨term, terms, hterms, hcombine⟩
    exact ⟨hread.place, hread.text, fun h => absurd h hlinks, fun _ _ => ⟨number, hread, rfl⟩,
      fun _ h => absurd h (not_exists_isNumber (isNumber_of_makes hterms))⟩
  | name hlinks hmarks hname =>
    obtain rfl := Except.ok.inj hresult
    obtain ⟨element, hkind, helement⟩ := chain.hasElement_variableOf
    refine ⟨rfl, rfl, fun h => absurd h hlinks, fun _ h => absurd hname (not_exists_isNumber h),
      fun _ _ => ⟨element, hkind, ?_, helement⟩⟩
    rw [hkind]
    rfl

/-- A fault of a chain stands at one of its marks or number words. -/
theorem place_of_fault {diagnostic : Diagnostic} (h : chain.token = .error diagnostic) :
    ∃ part ∈ chain.parts, part.place = diagnostic.place ∧
      (part.isMark || part.isNumber) = true := by
  have hreading := chain.reading_token
  rw [h] at hreading
  generalize hresult : Except.error diagnostic = result at hreading
  cases hreading with
  | single => cases hresult
  | mark hlinks mark hmem hmark =>
    obtain rfl := Except.error.inj hresult
    exact ⟨mark, hmem, rfl, by rw [hmark]; rfl⟩
  | number hlinks term terms hterms =>
    -- Where a term stands, its part does.
    have hplace := Number.place_of_combine (map_eq_error_iff.mp hresult.symm)
    rw [← map_eq_of_forall₂ (fun _ _ h => h.place.symm) hterms] at hplace
    obtain ⟨part, hpart, hplace⟩ := List.mem_map.mp hplace
    refine ⟨part, hpart, hplace, ?_⟩
    rw [isNumber_of_makes hterms part hpart, Bool.or_true]
  | name => cases hresult

end

end Chain

/-- A text with hyphens, character by character. -/
theorem toList_intercalate_cons (word : String) (words : List String) :
    ("-".intercalate (word :: words)).toList =
      word.toList ++ words.flatMap fun word => '-' :: word.toList := by
  induction words generalizing word with
  | nil => simp
  | cons next words ih => simp [String.intercalate_cons_cons, ih]

end Verse
