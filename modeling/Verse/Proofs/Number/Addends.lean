import Verse.Proofs.Number.English
import Verse.Token.Reading

/-!
# What the last pass adds

Four passes leave the products of a group, and the last one adds them up.  Its sum keeps the
magnitude of the first term, so that every later term is compared with the first one and with no
other.  A group is read as a number if the first term outweighs all the others; whether these go
down among themselves is not looked at.

* `addends`                            the terms that come to the last pass
* `pass_sums_eq_singleton_iff`         what the last pass adds up to one term
* `combine_eq_ok_iff`                  the groups that are read as a number
* `first_addend_outweighs_the_rest`    hence when the magnitudes go down all the way
-/

namespace Verse.Number

/-- The terms of a group that come to the last pass: what the four passes before it leave. -/
def addends (arithmetic : Arithmetic) (terms : List Term) : Except Diagnostic (List Term) := do
  let terms ← passAll (units arithmetic) false terms
  let terms ← passAll (hundreds arithmetic) false terms
  let terms ← passAll (remainders arithmetic) false terms
  passAll (multiples arithmetic) true terms

/-- A sum so far, with one more term.  It keeps its magnitude. -/
def Term.plus (arithmetic : Arithmetic) (term next : Term) : Term :=
  term.join next (arithmetic.add term.value next.value) term.magnitude

/-- The sum of some terms, from left to right. -/
def total (arithmetic : Arithmetic) (lead : Term) (others : List Term) : Term :=
  others.foldl (Term.plus arithmetic) lead

/-- The first of some terms outweighs each of the others. -/
def Outweighs (lead : Term) (others : List Term) : Prop :=
  ∀ term ∈ others, term.magnitude < lead.magnitude

/-- The magnitudes of some terms go down from left to right. -/
def GoesDown (terms : List Term) : Prop :=
  terms.Pairwise fun term later => later.magnitude < term.magnitude

instance (terms : List Term) : Decidable (GoesDown terms) :=
  inferInstanceAs (Decidable (terms.Pairwise _))

variable {arithmetic : Arithmetic} {term next first number : Term} {rest others : List Term}

/-! ## The last pass -/

/-- Two terms of one magnitude clash. -/
theorem sums_clash (h : next.magnitude = term.magnitude) : sums arithmetic term next = .clash := by
  rw [sums, Nat.compare_eq_eq.mpr h.symm]

/-- A greater term is left apart from a smaller one in front of it. -/
theorem sums_apart (h : term.magnitude < next.magnitude) : sums arithmetic term next = .apart := by
  rw [sums, Nat.compare_eq_lt.mpr h]

/-- Outweighing is asked of one term after the other. -/
theorem outweighs_cons :
    Outweighs term (next :: rest) ↔ next.magnitude < term.magnitude ∧ Outweighs term rest :=
  List.forall_mem_cons

/-- A sum outweighs what its first term outweighs. -/
theorem outweighs_plus : Outweighs (term.plus arithmetic next) rest ↔ Outweighs term rest :=
  Iff.rfl

/-- A pass leaves at least one term of a group. -/
theorem pass_ne_nil {meet : Term → Term → Meeting} {again : Bool} :
    pass meet again term rest ≠ .ok [] := by
  intro h
  exact absurd ((keeps_of_pass h).nil_iff.mp rfl) (List.cons_ne_nil _ _)

/-- The last pass makes one term of a group just when the first term outweighs the others. -/
theorem pass_sums_eq_singleton_iff :
    pass (sums arithmetic) true term rest = .ok [number] ↔
      Outweighs term rest ∧ number = total arithmetic term rest := by
  -- The term that the pass goes on with is the sum so far, as heavy as the first of its terms.
  induction rest generalizing term with
  | nil => simp [pass, Outweighs, total, eq_comm]
  | cons next rest ih =>
    rw [outweighs_cons, total, List.foldl_cons]
    obtain hlt | heq | hgt := Nat.lt_trichotomy next.magnitude term.magnitude
    · have hjoin : sums arithmetic term next =
          .join (arithmetic.add term.value next.value) term.magnitude := sums_join hlt
      rw [pass_join_again hjoin]
      -- What goes on is the sum of the two, and it outweighs what the first of them does.
      change pass (sums arithmetic) true (term.plus arithmetic next) rest = _ ↔ _
      rw [ih, outweighs_plus, total]
      simp only [hlt, true_and]
    · rw [pass, sums_clash heq]
      simp [heq]
    · -- A term that is left apart stays in front of at least one other.
      rw [pass_apart (sums_apart hgt), map_eq_ok_iff]
      constructor
      · rintro ⟨left, hpass, hleft⟩
        obtain rfl := (List.cons.inj hleft).2
        exact absurd hpass pass_ne_nil
      · rintro ⟨⟨hlt, -⟩, -⟩
        omega

/-! ## The groups that are read as a number -/

/-- The last pass is given the addends. -/
theorem reduce_eq_bind (arithmetic : Arithmetic) (terms : List Term) :
    reduce arithmetic terms = addends arithmetic terms >>= passAll (sums arithmetic) true := by
  simp only [reduce, addends, bind_assoc]

/-- A group is read as the number that the passes leave of it. -/
theorem combine_eq_ok_iff_reduce :
    combine arithmetic first rest = .ok number ↔
      reduce arithmetic (first :: rest) = .ok [number] := by
  rw [combine]
  cases hreduce : reduce arithmetic (first :: rest) with
  | error diagnostic => simp
  | ok terms =>
    have hnil := (keeps_of_reduce hreduce).nil_iff
    cases terms with
    | nil => exact absurd (hnil.mp rfl) (List.cons_ne_nil _ _)
    | cons lead others => cases others <;> simp

/-- A group is read as a number just when the first of its addends outweighs the others, and the
    number is their sum. -/
theorem combine_eq_ok_iff :
    combine arithmetic first rest = .ok number ↔
      ∃ lead others, addends arithmetic (first :: rest) = .ok (lead :: others) ∧
        Outweighs lead others ∧ number = total arithmetic lead others := by
  rw [combine_eq_ok_iff_reduce, reduce_eq_bind, bind_eq_ok_iff]
  constructor
  · rintro ⟨terms, haddends, hsums⟩
    -- Without a term there is nothing to leave.
    cases terms with
    | nil => cases hsums
    | cons lead others => exact ⟨lead, others, haddends, pass_sums_eq_singleton_iff.mp hsums⟩
  · rintro ⟨lead, others, haddends, hsum⟩
    exact ⟨lead :: others, haddends, pass_sums_eq_singleton_iff.mpr hsum⟩

/-- Once the addends are known, it is only asked whether the first one outweighs the others. -/
theorem exists_combine_iff {lead : Term}
    (haddends : addends arithmetic (first :: rest) = .ok (lead :: others)) :
    (∃ number, combine arithmetic first rest = .ok number) ↔ Outweighs lead others := by
  constructor
  · rintro ⟨number, hnumber⟩
    -- The addends of a group are determined by it.
    obtain ⟨lead', others', haddends', houtweighs, -⟩ := combine_eq_ok_iff.mp hnumber
    obtain ⟨rfl, rfl⟩ := List.cons.inj (Except.ok.inj (haddends.symm.trans haddends'))
    exact houtweighs
  · intro houtweighs
    exact ⟨_, combine_eq_ok_iff.mpr ⟨lead, others, haddends, houtweighs, rfl⟩⟩

/-- A group is read as a number if and only if the four passes before the last one go through and
    the first of the addends that they leave outweighs each of the others; the number is then the
    sum of the addends.  So the magnitudes of the addends go down all the way if and only if the
    group is read and those behind the first addend go down among themselves, which no pass looks
    at.  With at most one of them there is nothing to look at. -/
theorem first_addend_outweighs_the_rest (arithmetic : Arithmetic) (first : Term)
    (rest : List Term) :
    (∀ number, combine arithmetic first rest = .ok number ↔
      ∃ lead others, addends arithmetic (first :: rest) = .ok (lead :: others) ∧
        Outweighs lead others ∧ number = total arithmetic lead others) ∧
    ∀ lead others, addends arithmetic (first :: rest) = .ok (lead :: others) →
      (GoesDown (lead :: others) ↔
        (∃ number, combine arithmetic first rest = .ok number) ∧ GoesDown others) ∧
      (others.length ≤ 1 →
        (GoesDown (lead :: others) ↔ ∃ number, combine arithmetic first rest = .ok number)) := by
  refine ⟨fun number => combine_eq_ok_iff, fun lead others haddends => ?_⟩
  have hdown : GoesDown (lead :: others) ↔ Outweighs lead others ∧ GoesDown others :=
    List.pairwise_cons
  rw [exists_combine_iff haddends, hdown]
  refine ⟨Iff.rfl, fun hlength => and_iff_left ?_⟩
  -- No more than one term is behind the first one, so there are no two to compare.
  match others with
  | [] => exact .nil
  | [_] => exact List.pairwise_singleton _ _

/-- The terms of some words. -/
def ofWords (words : List String) : List Term :=
  words.map fun word => .ofValue ⟨1, 1⟩ word ((ofWord? word).getD 0)

/-- A million, a thousand and ten go down, and so do a million and ten. -/
theorem first_addend_outweighs_the_rest_million :
    let million : Term := .ofValue ⟨1, 1⟩ "million" 1000000
    (∃ number, combine .saturating million (ofWords ["thousand", "ten"]) = .ok number) ∧
      ∃ number, combine .saturating million (ofWords ["ten"]) = .ok number := by
  intro million
  have hthree : addends .saturating (million :: ofWords ["thousand", "ten"]) =
      .ok (million :: ofWords ["thousand", "ten"]) := by decide +kernel
  have htwo : addends .saturating (million :: ofWords ["ten"]) =
      .ok (million :: ofWords ["ten"]) := by decide +kernel
  have hdownThree : GoesDown (million :: ofWords ["thousand", "ten"]) := by decide +kernel
  have hdownTwo : GoesDown (million :: ofWords ["ten"]) := by decide +kernel
  obtain ⟨-, hmillion⟩ := first_addend_outweighs_the_rest .saturating million
    (ofWords ["thousand", "ten"])
  obtain ⟨-, hmillion'⟩ := first_addend_outweighs_the_rest .saturating million (ofWords ["ten"])
  exact ⟨((hmillion _ _ hthree).1.mp hdownThree).1,
    ((hmillion' _ _ htwo).2 (by decide)).mp hdownTwo⟩

/-- Behind a million that outweighs them both, two thousand and three thousand are added although
    they have one magnitude, and so are two thousand and a hundred thousand, which go up. -/
theorem addends_that_do_not_go_down_are_read :
    let million : Term := ⟨⟨1, 1⟩, "one-million", 1000000, 6⟩
    let two : Term := ⟨⟨1, 1⟩, "two-thousand", 2000, 3⟩
    let three : Term := ⟨⟨1, 1⟩, "three-thousand", 3000, 3⟩
    let hundred : Term := ⟨⟨1, 1⟩, "hundred-thousand", 100000, 5⟩
    let level := ["million", "two", "thousand", "three", "thousand"]
    let rising := ["million", "two", "thousand", "hundred", "thousand"]
    let one : Term := .ofValue ⟨1, 1⟩ "one" 1
    (addends .saturating (one :: ofWords level) = .ok [million, two, three] ∧
      combine .saturating one (ofWords level) = .ok (total .saturating million [two, three]) ∧
      ¬ GoesDown [million, two, three]) ∧
    (addends .saturating (one :: ofWords rising) = .ok [million, two, hundred] ∧
      combine .saturating one (ofWords rising) = .ok (total .saturating million [two, hundred]) ∧
      ¬ GoesDown [million, two, hundred]) ∧
    Token.ofText .empty "one-million-two-thousand-three-thousand" =
      .ok [⟨⟨1, 1⟩, "one-million-two-thousand-three-thousand", .number (Float.ofNat 1005000)⟩] := by
  decide +kernel

end Verse.Number
