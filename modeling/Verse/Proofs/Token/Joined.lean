import Mathlib.Data.List.Chain
import Verse.Proofs.Token.Chain

/-!
# Words joined by hyphens

The words and hyphens of a text are read chain by chain.  Unless a hyphen has no word to join,
they are a sequence of chains, and in one way only: its members are the maximal chains, which no
hyphen joins to anything more.

* `chain_induction`          how pieces are read, as a principle of induction
* `ofText_eq_ok_iff`         a text with tokens is a sequence of chains that make them
* `Chain.isMaximal_iff`      the members of a sequence are its maximal chains
* `wellJoined_iff`           the rules for hyphens hold of the sequences of chains
-/

namespace Verse

namespace Piece

/-- Where a piece stands. -/
def place : Piece → Place
  | .part p => p.place
  | .hyphen place => place

/-- Whether a piece is a hyphen. -/
def isHyphen : Piece → Bool
  | .part _ => false
  | .hyphen _ => true

/-- Words with a hyphen before each of them. -/
def linked (links : List (Place × Part)) : List Piece :=
  links.flatMap fun link => [.hyphen link.1, .part link.2]

@[simp] theorem linked_nil : linked [] = [] := rfl

@[simp] theorem linked_cons (link : Place × Part) (links : List (Place × Part)) :
    linked (link :: links) = .hyphen link.1 :: .part link.2 :: linked links := rfl

end Piece

/-- The words and hyphens of a chain. -/
def Chain.pieces (chain : Chain) : List Piece :=
  .part chain.first :: Piece.linked chain.links

/-- Pieces that do not go on with a hyphen. -/
def EndsChain (rest : List Piece) : Prop :=
  ∀ piece ∈ rest.head?, piece.isHyphen = false

/-- Pieces that do not go on with a word. -/
def LacksWord (rest : List Piece) : Prop :=
  ∀ piece ∈ rest.head?, piece.isHyphen = true

/-! ## One chain after the other -/

/-- All words are joined as far as the hyphens go on. -/
theorem joined_linked (links : List (Place × Part)) {rest : List Piece} (hrest : EndsChain rest) :
    joined (Piece.linked links ++ rest) = (links.map (·.2), none, rest) := by
  induction links with
  | nil =>
    cases rest with
    | nil => rfl
    | cons piece rest =>
      cases piece with
      | part part => rfl
      | hyphen place => cases hrest (.hyphen place) rfl
  | cons link links ih => simp [joined, ih]

/-- A hyphen without a word behind it ends the joining, and takes what follows it along. -/
theorem joined_dangling (links : List (Place × Part)) (place : Place) {rest : List Piece}
    (hrest : LacksWord rest) :
    joined (Piece.linked links ++ .hyphen place :: rest) =
      (links.map (·.2), some place, rest.drop 1) := by
  induction links with
  | nil =>
    cases rest with
    | nil => rfl
    | cons piece rest =>
      cases piece with
      | part part => cases hrest (.part part) rfl
      | hyphen place => rfl
  | cons link links ih => simp [joined, ih]

/-- The two ways in which joining comes to its end. -/
theorem linked_cases (pieces : List Piece) :
    (∃ links rest, pieces = Piece.linked links ++ rest ∧ EndsChain rest) ∨
      ∃ links place rest, pieces = Piece.linked links ++ .hyphen place :: rest ∧
        LacksWord rest := by
  fun_induction joined pieces with
  | case1 place part rest _ _ _ _ ih =>
    obtain ⟨links, rest, rfl, hrest⟩ | ⟨links, dangling, rest, rfl, hrest⟩ := ih
    · exact .inl ⟨(place, part) :: links, rest, rfl, hrest⟩
    · exact .inr ⟨(place, part) :: links, dangling, rest, rfl, hrest⟩
  | case2 place rest hrest =>
    refine .inr ⟨[], place, rest, rfl, fun piece hpiece => ?_⟩
    -- A word behind the hyphen would have been joined.
    cases piece with
    | hyphen _ => rfl
    | part part =>
      obtain ⟨tail, rfl⟩ := List.head?_eq_some_iff.mp hpiece
      cases hrest part tail rfl
  | case3 pieces _ hpieces =>
    refine .inl ⟨[], pieces, rfl, fun piece hpiece => ?_⟩
    cases piece with
    | part part => rfl
    | hyphen place =>
      obtain ⟨rest, rfl⟩ := List.head?_eq_some_iff.mp hpiece
      cases hpieces place rest rfl

/-- A hyphen at the start joins nothing. -/
theorem chains_leading (place : Place) (rest : List Piece) :
    chains (.hyphen place :: rest) = .error ⟨place, .leadingHyphen⟩ :: chains rest := by
  rw [chains]

/-- A chain makes its token, and what follows is read afterwards. -/
theorem chains_chain (chain : Chain) {rest : List Piece} (hrest : EndsChain rest) :
    chains (chain.pieces ++ rest) = chain.token :: chains rest := by
  rw [Chain.pieces, List.cons_append, chains, joined_linked chain.links hrest]
  simp [Chain.token]

/-- A chain in front of a hyphen that joins nothing makes its token all the same. -/
theorem chains_dangling (chain : Chain) (place : Place) {rest : List Piece}
    (hrest : LacksWord rest) :
    chains (chain.pieces ++ .hyphen place :: rest) =
      .error ⟨place, .danglingHyphen⟩ :: chain.token :: chains (rest.drop 1) := by
  rw [Chain.pieces, List.cons_append, chains, joined_dangling chain.links place hrest]
  simp [Chain.token]

/-- Pieces are read from their start: a hyphen with no word before it, a chain, or a chain and a
    hyphen with no word behind it, which is skipped with the piece after it. -/
theorem chain_induction {motive : List Piece → Prop} (nil : motive [])
    (leading : ∀ place rest, motive rest → motive (.hyphen place :: rest))
    (chain : ∀ (chain : Chain) (rest : List Piece), EndsChain rest → motive rest →
      motive (chain.pieces ++ rest))
    (dangling : ∀ (chain : Chain) (place : Place) (rest : List Piece), LacksWord rest →
      motive (rest.drop 1) → motive (chain.pieces ++ .hyphen place :: rest))
    (pieces : List Piece) : motive pieces := by
  fun_induction chains pieces with
  | case1 => exact nil
  | case2 place rest ih => exact leading place rest ih
  | case3 first pieces =>
    rename_i joining _ _ ih
    -- How the joining ends decides what is read next.
    obtain ⟨links, rest, rfl, hrest⟩ | ⟨links, place, rest, rfl, hrest⟩ := linked_cases pieces
    · simp only [joining, joined_linked links hrest] at ih
      exact chain ⟨first, links⟩ rest hrest ih
    · simp only [joining, joined_dangling links place hrest] at ih
      exact dangling ⟨first, links⟩ place rest hrest ih

/-! ## Sequences of chains -/

/-- A sequence of chains does not go on with a hyphen. -/
theorem endsChain_flatMap (cs : List Chain) : EndsChain (cs.flatMap Chain.pieces) := by
  cases cs with
  | nil => intro piece hpiece; cases hpiece
  | cons chain cs =>
    intro piece hpiece
    obtain rfl : .part chain.first = piece := Option.some.inj hpiece
    rfl

/-- A sequence of chains makes one token for each of them. -/
theorem chains_flatMap (cs : List Chain) :
    chains (cs.flatMap Chain.pieces) = cs.map Chain.token := by
  induction cs with
  | nil => rw [List.flatMap_nil, chains, List.map_nil]
  | cons chain cs ih => rw [List.flatMap_cons, chains_chain chain (endsChain_flatMap cs), ih,
      List.map_cons]

/-- Pieces without a fault are a sequence of chains. -/
theorem exists_flatMap_of_chains {pieces : List Piece} {tokens : List Token}
    (h : chains pieces = tokens.map .ok) : ∃ cs : List Chain, pieces = cs.flatMap Chain.pieces := by
  -- A hyphen that joins nothing would put a fault among the results.
  induction pieces using chain_induction generalizing tokens with
  | nil => exact ⟨[], rfl⟩
  | leading place rest ih =>
    rw [chains_leading] at h
    cases tokens <;> cases h
  | chain chain rest hrest ih =>
    rw [chains_chain chain hrest] at h
    cases tokens with
    | nil => cases h
    | cons token tokens =>
      obtain ⟨cs, rfl⟩ := ih (List.cons.inj h).2
      exact ⟨chain :: cs, rfl⟩
  | dangling chain place rest hrest ih =>
    rw [chains_dangling chain place hrest] at h
    cases tokens <;> cases h

/-- Tokens are gathered just if none of the results is a fault. -/
theorem gather_eq_ok_iff {results : List (Except Diagnostic Token)} {tokens : List Token} :
    gather results = .ok tokens ↔ results = tokens.map .ok := by
  induction results generalizing tokens with
  | nil => cases tokens <;> simp [gather]
  | cons result results ih =>
    cases result with
    | error diagnostic =>
      cases hgather : gather results <;> cases tokens <;> simp [gather, hgather]
    | ok token =>
      rw [gather, map_eq_ok_iff]
      cases tokens with
      | nil => simp
      | cons other tokens => simp [ih, and_comm]

/-- Every chain makes one of the tokens. -/
theorem map_token_eq_iff {cs : List Chain} {tokens : List Token} :
    cs.map Chain.token = tokens.map .ok ↔
      List.Forall₂ (fun chain token => chain.token = .ok token) cs tokens := by
  rw [← List.forall₂_eq_eq_eq, List.forall₂_map_left_iff, List.forall₂_map_right_iff]

/-- A text with tokens is a sequence of chains, and each of them makes one of the tokens. -/
theorem ofText_eq_ok_iff {lexicon : Lexicon} {text : String} {tokens : List Token} :
    Token.ofText lexicon text = .ok tokens ↔
      ∃ cs : List Chain, Piece.ofLexemes lexicon (Lexeme.ofText text) = cs.flatMap Chain.pieces ∧
        List.Forall₂ (fun chain token => chain.token = .ok token) cs tokens := by
  rw [Token.ofText, gather_eq_ok_iff]
  constructor
  · intro h
    obtain ⟨cs, hcs⟩ := exists_flatMap_of_chains h
    rw [hcs, chains_flatMap, map_token_eq_iff] at h
    exact ⟨cs, hcs, h⟩
  · rintro ⟨cs, hcs, h⟩
    rw [hcs, chains_flatMap, map_token_eq_iff]
    exact h

/-- A chain does not end with a hyphen. -/
theorem Chain.getLast?_pieces (chain : Chain) :
    ∀ piece ∈ chain.pieces.getLast?, piece.isHyphen = false := by
  obtain ⟨first, links⟩ := chain
  rw [pieces]
  induction links generalizing first with
  | nil =>
    intro piece hpiece
    obtain rfl : .part first = piece := Option.some.inj hpiece
    rfl
  | cons link links ih =>
    rw [Piece.linked_cons, List.getLast?_cons_cons, List.getLast?_cons_cons]
    exact ih link.2

/-- Nor does a sequence of chains. -/
theorem getLast?_flatMap (cs : List Chain) :
    ∀ piece ∈ (cs.flatMap Chain.pieces).getLast?, piece.isHyphen = false := by
  induction cs with
  | nil => intro piece hpiece; cases hpiece
  | cons chain cs ih =>
    intro piece hpiece
    rw [List.flatMap_cons, List.getLast?_append, Option.mem_def, Option.or_eq_some_iff] at hpiece
    obtain hpiece | ⟨-, hpiece⟩ := hpiece
    · exact ih piece hpiece
    · exact chain.getLast?_pieces piece hpiece

/-! ## Maximal chains -/

/-- A chain among some pieces that no hyphen joins to the pieces before it or behind it. -/
def Chain.IsMaximal (chain : Chain) (pieces : List Piece) : Prop :=
  ∃ before behind, pieces = before ++ chain.pieces ++ behind ∧
    (∀ piece ∈ before.getLast?, piece.isHyphen = false) ∧
    ∀ piece ∈ behind.head?, piece.isHyphen = false

/-- The pieces determine where a chain ends. -/
theorem linked_append_inj {links links' : List (Place × Part)} {rest rest' : List Piece}
    (hrest : EndsChain rest) (hrest' : EndsChain rest')
    (h : Piece.linked links ++ rest = Piece.linked links' ++ rest') :
    links = links' ∧ rest = rest' := by
  -- Where only one of the chains has come to its end, the other goes on with a hyphen.
  induction links generalizing links' with
  | nil =>
    cases links' with
    | nil => exact ⟨rfl, h⟩
    | cons link' links' =>
      rw [Piece.linked_nil, List.nil_append] at h
      -- Here one chain would go on with a hyphen where the other has ended.
      subst h
      cases hrest (.hyphen link'.1) rfl
  | cons link links ih =>
    cases links' with
    | nil =>
      rw [Piece.linked_nil, List.nil_append] at h
      subst h
      cases hrest' (.hyphen link.1) rfl
    | cons link' links' =>
      simp only [Piece.linked_cons, List.cons_append, List.cons.injEq, Piece.hyphen.injEq,
        Piece.part.injEq] at h
      obtain ⟨hplace, hpart, htail⟩ := h
      obtain ⟨rfl, rfl⟩ := ih htail
      exact ⟨by rw [Prod.ext hplace hpart], rfl⟩

/-- Behind the first word of a chain, a hyphen stands before each word. -/
theorem getLast?_of_linked {links : List (Place × Part)} {part : Part} {before behind : List Piece}
    (h : Piece.linked links = before ++ .part part :: behind) :
    ∃ place, before.getLast? = some (.hyphen place) := by
  induction links generalizing before with
  | nil => simp at h
  | cons link links ih =>
    rw [Piece.linked_cons] at h
    cases before with
    | nil => cases (List.cons.inj h).1
    | cons piece before =>
      obtain ⟨rfl, hbehind⟩ := List.cons.inj h
      cases before with
      | nil => exact ⟨link.1, rfl⟩
      | cons piece before =>
        obtain ⟨rfl, hlinks⟩ := List.cons.inj hbehind
        obtain ⟨place, hplace⟩ := ih hlinks
        refine ⟨place, ?_⟩
        rw [List.getLast?_cons_cons, List.getLast?_cons, hplace]
        rfl

/-- A chain that no hyphen joins to anything is one of the sequence. -/
theorem Chain.mem_of_isMaximal {chain : Chain} {cs : List Chain}
    (h : chain.IsMaximal (cs.flatMap Chain.pieces)) : chain ∈ cs := by
  obtain ⟨before, behind, hpieces, hbefore, hbehind⟩ := h
  -- The chain lies behind the first of the others, or it begins inside it.
  induction cs generalizing before with
  | nil => simp [Chain.pieces] at hpieces
  | cons other cs ih =>
    rw [List.flatMap_cons, List.append_assoc] at hpieces
    obtain ⟨middle, rfl, hrest⟩ | ⟨middle, hother, hrest⟩ := List.append_eq_append_iff.mp hpieces
    · -- It lies behind the first chain, where its neighbours are the same.
      refine List.mem_cons_of_mem _ (ih middle ?_ ?_)
      · rw [hrest, List.append_assoc]
      · intro piece hpiece
        refine hbefore piece ?_
        rw [List.getLast?_append, Option.mem_def, hpiece]
        rfl
    · cases middle with
      | nil =>
        refine List.mem_cons_of_mem _ (ih [] ?_ fun piece hpiece => ?_)
        · simpa using hrest.symm
        · cases hpiece
      | cons piece middle =>
        obtain ⟨rfl, hmiddle⟩ := List.cons.inj hrest
        cases before with
        | nil =>
          obtain ⟨hfirst, rfl⟩ := List.cons.inj hother
          obtain ⟨hlinks, -⟩ := linked_append_inj (endsChain_flatMap cs) hbehind hmiddle.symm
          obtain ⟨first, links⟩ := chain
          obtain ⟨first', links'⟩ := other
          obtain rfl := Piece.part.inj hfirst
          obtain rfl : links' = links := hlinks
          exact List.mem_cons_self
        -- Inside a chain a hyphen stands before it, which would join it to more.
        | cons piece before =>
          obtain ⟨rfl, hlinks⟩ := List.cons.inj hother
          obtain ⟨place, hplace⟩ := getLast?_of_linked hlinks
          have hhyphen := hbefore (.hyphen place) (by rw [List.getLast?_cons, hplace]; rfl)
          cases hhyphen

/-- A chain of the sequence has other chains for neighbours, and these do not meet it with
    hyphens. -/
theorem Chain.isMaximal_of_mem {chain : Chain} {cs : List Chain} (h : chain ∈ cs) :
    chain.IsMaximal (cs.flatMap Chain.pieces) := by
  obtain ⟨before, behind, rfl⟩ := List.append_of_mem h
  refine ⟨before.flatMap Chain.pieces, behind.flatMap Chain.pieces, ?_, getLast?_flatMap before,
    endsChain_flatMap behind⟩
  rw [List.flatMap_append, List.flatMap_cons, List.append_assoc]

/-- The maximal chains of a sequence are its members. -/
theorem Chain.isMaximal_iff {chain : Chain} {cs : List Chain} :
    chain.IsMaximal (cs.flatMap Chain.pieces) ↔ chain ∈ cs :=
  ⟨mem_of_isMaximal, isMaximal_of_mem⟩

/-! ## The rules for hyphens -/

/-- Whether a hyphen can join a piece: not if this is another hyphen or a punctuation mark. -/
def Piece.isJoinable : Piece → Bool
  | .part p => !p.isMark
  | .hyphen _ => false

/-- Pieces that can stand side by side: what stands next to a hyphen can be joined. -/
def Piece.Meets (left right : Piece) : Prop :=
  (left.isHyphen = true → right.isJoinable = true) ∧
    (right.isHyphen = true → left.isJoinable = true)

/-- Pieces with a hyphen only where it joins two words: none stands first or last, and none next
    to another hyphen or to a punctuation mark. -/
structure WellJoined (pieces : List Piece) : Prop where
  first : ∀ piece ∈ pieces.head?, piece.isHyphen = false
  last : ∀ piece ∈ pieces.getLast?, piece.isHyphen = false
  beside : pieces.IsChain Piece.Meets

/-- Words that are no marks may be joined. -/
theorem isChain_linked {part : Part} {links : List (Place × Part)}
    (h : links ≠ [] → ∀ other ∈ part :: links.map (·.2), other.isMark = false) :
    (Piece.part part :: Piece.linked links).IsChain Piece.Meets := by
  induction links generalizing part with
  | nil => exact List.isChain_singleton _
  | cons link links ih =>
    have hmarks := h (List.cons_ne_nil _ _)
    have hpart : part.isMark = false := hmarks part List.mem_cons_self
    have hlink : link.2.isMark = false := hmarks link.2 (List.mem_cons_of_mem _ List.mem_cons_self)
    rw [Piece.linked_cons, List.isChain_cons_cons, List.isChain_cons_cons]
    refine ⟨⟨fun h => ?_, fun _ => ?_⟩, ⟨fun _ => ?_, fun h => ?_⟩, ih fun _ => ?_⟩
    · cases h
    · simp [Piece.isJoinable, hpart]
    · simp [Piece.isJoinable, hlink]
    · cases h
    · exact fun other hother => hmarks other (List.mem_cons_of_mem _ hother)

/-- And joined words are no marks. -/
theorem isMark_of_isChain {part : Part} {links : List (Place × Part)}
    (h : (Piece.part part :: Piece.linked links).IsChain Piece.Meets)
    (hlinks : links ≠ []) : ∀ other ∈ part :: links.map (·.2), other.isMark = false := by
  induction links generalizing part with
  | nil => exact absurd rfl hlinks
  | cons link links ih =>
    rw [Piece.linked_cons, List.isChain_cons_cons, List.isChain_cons_cons] at h
    obtain ⟨hbefore, hbehind, hrest⟩ := h
    -- The hyphen meets a word on either side.
    have hpart : part.isMark = false := by simpa [Piece.isJoinable] using hbefore.2 rfl
    have hlink : link.2.isMark = false := by simpa [Piece.isJoinable] using hbehind.1 rfl
    refine List.forall_mem_cons.mpr ⟨hpart, ?_⟩
    cases links with
    | nil => exact List.forall_mem_singleton.mpr hlink
    | cons next links => exact ih hrest (List.cons_ne_nil _ _)

/-- Within a chain the rules for hyphens say that no mark is joined. -/
theorem Chain.isChain_pieces_iff {chain : Chain} :
    chain.pieces.IsChain Piece.Meets ↔ chain.IsJoinable :=
  ⟨isMark_of_isChain, isChain_linked⟩

/-- Sequences of such chains obey the rules for hyphens. -/
theorem wellJoined_flatMap {cs : List Chain} (h : ∀ chain ∈ cs, chain.IsJoinable) :
    WellJoined (cs.flatMap Chain.pieces) := by
  refine ⟨endsChain_flatMap cs, getLast?_flatMap cs, ?_⟩
  induction cs with
  | nil => exact List.isChain_nil
  | cons chain cs ih =>
    rw [List.flatMap_cons, List.isChain_append]
    refine ⟨Chain.isChain_pieces_iff.mpr (h chain List.mem_cons_self),
      ih fun other hother => h other (List.mem_cons_of_mem _ hother), ?_⟩
    -- No hyphen stands between two chains.
    intro left hleft right hright
    have hleft := chain.getLast?_pieces left hleft
    have hright := endsChain_flatMap cs right hright
    simp [Piece.Meets, hleft, hright]

/-- Behind a part of the pieces the rules hold of the others. -/
theorem WellJoined.of_append {pieces rest : List Piece} (h : WellJoined (pieces ++ rest))
    (hrest : EndsChain rest) : WellJoined rest := by
  refine ⟨hrest, fun piece hpiece => h.last piece ?_, h.beside.right_of_append⟩
  rw [List.getLast?_append, Option.mem_def, hpiece]
  rfl

/-- A hyphen with no word behind it breaks the rules. -/
theorem not_wellJoined_of_lacksWord {pieces rest : List Piece} {place : Place}
    (hrest : LacksWord rest) : ¬ WellJoined (pieces ++ .hyphen place :: rest) := by
  intro h
  -- The hyphen stands last, or beside a piece that cannot be joined.
  cases rest with
  | nil =>
    have hlast := h.last (.hyphen place) (by rw [List.getLast?_concat]; rfl)
    cases hlast
  | cons piece rest =>
    have hmeets : Piece.Meets (.hyphen place) piece :=
      (List.isChain_append_cons_cons.mp h.beside).2.1
    have hjoinable := hmeets.1 rfl
    have hhyphen := hrest piece rfl
    cases piece with
    | part part => cases hhyphen
    | hyphen place => cases hjoinable

/-- The rules for hyphens hold of the sequences of chains that join no mark. -/
theorem wellJoined_iff {pieces : List Piece} : WellJoined pieces ↔
    ∃ cs : List Chain, pieces = cs.flatMap Chain.pieces ∧ ∀ chain ∈ cs, chain.IsJoinable := by
  constructor
  · intro h
    -- Of the ways in which pieces are read, the rules leave those without a fault.
    induction pieces using chain_induction with
    | nil => exact ⟨[], rfl, List.forall_mem_nil _⟩
    | leading place rest ih =>
      have hfirst := h.first (.hyphen place) rfl
      cases hfirst
    | chain chain rest hrest ih =>
      obtain ⟨cs, rfl, hjoinable⟩ := ih (h.of_append hrest)
      have hchain := Chain.isChain_pieces_iff.mp h.beside.left_of_append
      exact ⟨chain :: cs, rfl, List.forall_mem_cons.mpr ⟨hchain, hjoinable⟩⟩
    | dangling chain place rest hrest ih => exact absurd h (not_wellJoined_of_lacksWord hrest)
  · rintro ⟨cs, rfl, h⟩
    exact wellJoined_flatMap h

end Verse
