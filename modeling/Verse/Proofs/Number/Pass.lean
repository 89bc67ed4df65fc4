import Verse.Number.Group
import Verse.Proofs.Except

/-!
# Passes over a number group

Whatever a pass joins, the terms still say the same hyphenated text, and the first of them
stands where it stood.  A pass that joins pairs works on each side of a term by itself, if
this term always stays apart.

* `combine_keeps`           a group that is read as a number keeps its text and its place
* `place_of_combine`        a fault is found at the place of a term
* `passAll_append`          a term that stays apart divides a group
-/

namespace Verse.Number

/-! ## What every pass keeps -/

/-- The text that terms are the words of. -/
def hyphenated (terms : List Term) : String :=
  "-".intercalate (terms.map Term.text)

/-- A joined term says what the two terms have said. -/
theorem hyphenated_join (term next : Term) (rest : List Term) (value magnitude : Nat) :
    hyphenated (term.join next value magnitude :: rest) = hyphenated (term :: next :: rest) := by
  simp only [hyphenated, List.map_cons, Term.join, String.intercalate_cons_cons]
  rw [String.intercalate_cons_append]

/-- Behind one more term, it is enough that the others say the same. -/
theorem hyphenated_cons_congr (term : Term) {terms terms' : List Term}
    (h : hyphenated terms = hyphenated terms') (hnil : terms = [] ↔ terms' = []) :
    hyphenated (term :: terms) = hyphenated (term :: terms') := by
  cases terms with
  | nil => rw [hnil.mp rfl]
  | cons next rest =>
    -- A hyphen is only written where a term follows.
    cases terms' with
    | nil => exact absurd (hnil.mpr rfl) (List.cons_ne_nil _ _)
    | cons next' rest' =>
      simp only [hyphenated, List.map_cons, String.intercalate_cons_cons] at h ⊢
      rw [h]

/-- Terms that a pass has made of others. -/
structure Keeps (terms terms' : List Term) : Prop where
  text : hyphenated terms' = hyphenated terms
  place : terms'.head?.map Term.place = terms.head?.map Term.place

theorem Keeps.refl (terms : List Term) : Keeps terms terms := ⟨rfl, rfl⟩

theorem Keeps.trans {terms₁ terms₂ terms₃ : List Term} (h : Keeps terms₁ terms₂)
    (h' : Keeps terms₂ terms₃) : Keeps terms₁ terms₃ :=
  ⟨h'.text.trans h.text, h'.place.trans h.place⟩

theorem Keeps.nil_iff {terms terms' : List Term} (h : Keeps terms terms') :
    terms' = [] ↔ terms = [] := by
  have hplace := h.place
  cases terms <;> cases terms' <;> simp_all

/-- In front of what is kept, one more term is kept. -/
theorem Keeps.cons (term : Term) {terms terms' : List Term} (h : Keeps terms terms') :
    Keeps (term :: terms) (term :: terms') :=
  ⟨hyphenated_cons_congr term h.text h.nil_iff, rfl⟩

/-- What is joined is kept. -/
theorem Keeps.join (term next : Term) (rest : List Term) (value magnitude : Nat) :
    Keeps (term :: next :: rest) (term.join next value magnitude :: rest) :=
  ⟨hyphenated_join term next rest value magnitude, rfl⟩

/-- A pass keeps what it is given, if it finds no fault. -/
theorem keeps_of_pass {meet : Term → Term → Meeting} {again : Bool} {term : Term}
    {rest terms : List Term} (h : pass meet again term rest = .ok terms) :
    Keeps (term :: rest) terms := by
  -- Terms that stay apart leave the rest of the group to the pass, and joined ones say the same.
  fun_induction pass meet again term rest generalizing terms with
  | case1 term =>
    cases h
    exact .refl _
  -- What the rest is made into goes behind the term that stays apart.
  | case2 term next rest _ ih =>
    obtain ⟨terms', hrest, rfl⟩ := map_eq_ok_iff.mp h
    exact (ih hrest).cons term
  | case3 => cases h
  | case4 term next rest value magnitude =>
    rename_i ih
    exact (Keeps.join term next rest value magnitude).trans (ih h)
  | case5 term next value magnitude =>
    cases h
    exact .join term next [] value magnitude
  -- The joined term stays, and the pass starts again behind it.
  | case6 term next value magnitude _ _ _ third rest =>
    rename_i ih
    obtain ⟨terms', hrest, rfl⟩ := map_eq_ok_iff.mp h
    exact (Keeps.join term next (third :: rest) value magnitude).trans ((ih hrest).cons _)

/-- The same holds of a group that may be empty. -/
theorem keeps_of_passAll {meet : Term → Term → Meeting} {again : Bool} {terms terms' : List Term}
    (h : passAll meet again terms = .ok terms') : Keeps terms terms' := by
  cases terms with
  | nil =>
    cases h
    exact .refl _
  | cons term rest => exact keeps_of_pass h

/-- What the three passes that join pairs of terms make of a group. -/
def Pairs (arithmetic : Arithmetic) (terms paired : List Term) : Prop :=
  ∃ tens hundredfold, passAll (units arithmetic) false terms = .ok tens ∧
    passAll (hundreds arithmetic) false tens = .ok hundredfold ∧
    passAll (remainders arithmetic) false hundredfold = .ok paired

/-- The two passes that are left join as many terms as they can. -/
theorem reduce_eq_ok {arithmetic : Arithmetic} {terms terms' : List Term} :
    reduce arithmetic terms = .ok terms' ↔ ∃ paired multiplied, Pairs arithmetic terms paired ∧
      passAll (multiples arithmetic) true paired = .ok multiplied ∧
      passAll (sums arithmetic) true multiplied = .ok terms' := by
  simp only [reduce, bind_eq_ok_iff, Pairs]
  constructor
  · rintro ⟨tens, htens, hundredfold, hhundredfold, paired, hpaired, multiplied, hmultiplied, h⟩
    exact ⟨paired, multiplied, ⟨tens, hundredfold, htens, hhundredfold, hpaired⟩, hmultiplied, h⟩
  · rintro ⟨paired, multiplied, ⟨tens, hundredfold, htens, hhundredfold, hpaired⟩, hmultiplied, h⟩
    exact ⟨tens, htens, hundredfold, hhundredfold, paired, hpaired, multiplied, hmultiplied, h⟩

/-- All five passes keep the group. -/
theorem keeps_of_reduce {arithmetic : Arithmetic} {terms terms' : List Term}
    (h : reduce arithmetic terms = .ok terms') : Keeps terms terms' := by
  obtain ⟨paired, multiplied, ⟨tens, hundredfold, htens, hhundredfold, hpaired⟩, hmultiplied, h⟩ :=
    reduce_eq_ok.mp h
  exact (keeps_of_passAll htens).trans ((keeps_of_passAll hhundredfold).trans
    ((keeps_of_passAll hpaired).trans ((keeps_of_passAll hmultiplied).trans (keeps_of_passAll h))))

/-- A group that is read as a number keeps its text and its place. -/
theorem combine_keeps {arithmetic : Arithmetic} {first number : Term} {rest : List Term}
    (h : combine arithmetic first rest = .ok number) :
    number.text = hyphenated (first :: rest) ∧ number.place = first.place := by
  rw [combine] at h
  cases hreduce : reduce arithmetic (first :: rest) with
  | error diagnostic =>
    rw [hreduce] at h
    cases h
  | ok terms =>
    have hkeeps := keeps_of_reduce hreduce
    rw [hreduce] at h
    cases terms with
    -- A group that has a term is not left empty.
    | nil => exact absurd (hkeeps.nil_iff.mp rfl) (List.cons_ne_nil _ _)
    | cons left others =>
      cases others with
      | nil =>
        cases h
        exact ⟨by simpa [hyphenated] using hkeeps.text, by simpa using hkeeps.place⟩
      -- Two terms that are left are a fault.
      | cons right others => cases h

/-! ## Where faults are found -/

/-- A result that speaks of the places of some terms only. -/
def At (terms : List Term) : Except Diagnostic (List Term) → Prop
  | .ok terms' => terms'.map Term.place ⊆ terms.map Term.place
  | .error diagnostic => diagnostic.place ∈ terms.map Term.place

/-- What speaks of some places only, speaks of some of more places only. -/
theorem At.mono {terms terms' : List Term} {result : Except Diagnostic (List Term)}
    (h : At terms result) (hsubset : terms.map Term.place ⊆ terms'.map Term.place) :
    At terms' result := by
  cases result with
  | error diagnostic => exact hsubset h
  | ok terms => exact List.Subset.trans h hsubset

/-- In front of a term, the places are those of the term and of the others. -/
theorem At.cons (term : Term) {terms : List Term} {result : Except Diagnostic (List Term)}
    (h : At terms result) : At (term :: terms) (result.map (term :: ·)) := by
  cases result with
  | error diagnostic => exact List.mem_cons_of_mem _ h
  | ok terms => exact List.cons_subset_cons _ h

/-- A pass that is given terms at such places speaks of such places. -/
theorem At.bind {terms : List Term} {result : Except Diagnostic (List Term)}
    {next : List Term → Except Diagnostic (List Term)} (h : At terms result)
    (hnext : ∀ terms', At terms' (next terms')) : At terms (result >>= next) := by
  cases result with
  | error diagnostic => exact h
  | ok terms' => exact (hnext terms').mono h

/-- A joined term stands at the place of one of the two. -/
theorem At.join {term next : Term} {rest : List Term} {value magnitude : Nat}
    {result : Except Diagnostic (List Term)}
    (h : At (term.join next value magnitude :: rest) result) : At (term :: next :: rest) result :=
  h.mono (List.cons_subset_cons _ (List.subset_cons_self _ _))

/-- A pass finds its faults, and leaves its terms, at places of the group. -/
theorem at_pass (meet : Term → Term → Meeting) (again : Bool) (term : Term) (rest : List Term) :
    At (term :: rest) (pass meet again term rest) := by
  fun_induction pass meet again term rest with
  | case1 term => exact List.Subset.refl _
  | case2 term next rest _ ih => exact ih.cons term
  -- Two terms that clash do so at the second one.
  | case3 term next rest => exact List.mem_cons_of_mem _ List.mem_cons_self
  | case4 =>
    rename_i ih
    exact ih.join
  | case5 term next => exact List.cons_subset_cons _ (List.nil_subset _)
  | case6 =>
    rename_i ih
    exact (ih.cons _).join

/-- The same holds of a group that may be empty. -/
theorem at_passAll (meet : Term → Term → Meeting) (again : Bool) (terms : List Term) :
    At terms (passAll meet again terms) := by
  cases terms with
  | nil => exact List.Subset.refl _
  | cons term rest => exact at_pass meet again term rest

/-- And of all five passes. -/
theorem at_reduce (arithmetic : Arithmetic) (terms : List Term) :
    At terms (reduce arithmetic terms) :=
  (at_passAll _ _ terms).bind fun _ => (at_passAll _ _ _).bind fun _ =>
    (at_passAll _ _ _).bind fun _ => (at_passAll _ _ _).bind fun _ => at_passAll _ _ _

/-- Where a group makes no number, one of its terms stands. -/
theorem place_of_combine {arithmetic : Arithmetic} {first : Term} {rest : List Term}
    {diagnostic : Diagnostic} (h : combine arithmetic first rest = .error diagnostic) :
    diagnostic.place ∈ (first :: rest).map Term.place := by
  have hat := at_reduce arithmetic (first :: rest)
  rw [combine] at h
  split at h
  case h_1 _ hreduce =>
    cases h
    rwa [hreduce] at hat
  case h_2 => cases h
  case h_3 => cases h
  case h_4 left right others hreduce =>
    cases h
    -- The terms that are left stand where terms of the group do, and the fault is at the second
    -- of them.
    rw [hreduce] at hat
    exact hat (List.mem_cons_of_mem _ List.mem_cons_self)

/-! ## Terms that stay apart -/

section

variable {meet : Term → Term → Meeting} {term next third : Term} {rest : List Term}

/-- A term that stays apart is left in front of what the pass makes of the rest. -/
theorem pass_apart (h : meet term next = .apart) (again : Bool) :
    pass meet again term (next :: rest) = (pass meet again next rest).map (term :: ·) := by
  rw [pass, h]

/-- Two terms at the end of a group are joined to one. -/
theorem pass_join_last {value magnitude : Nat} (h : meet term next = .join value magnitude) :
    pass meet false term [next] = .ok [term.join next value magnitude] := by
  rw [pass, h]
  rfl

/-- A pass that joins pairs goes on with the term behind a pair. -/
theorem pass_join {value magnitude : Nat} (h : meet term next = .join value magnitude) :
    pass meet false term (next :: third :: rest) =
      (pass meet false third rest).map (term.join next value magnitude :: ·) := by
  rw [pass, h]
  rfl

/-- A pass that joins again goes on with the joined term. -/
theorem pass_join_again {value magnitude : Nat} (h : meet term next = .join value magnitude) :
    pass meet true term (next :: rest) = pass meet true (term.join next value magnitude) rest := by
  rw [pass, h]
  rfl

end

section

variable {meet : Term → Term → Meeting} {wall : Term} {rest rest' : List Term}

/-- A term that the next one stays apart from is left as it is. -/
theorem pass_of_apart {again : Bool} (hafter : ∀ next ∈ rest.head?, meet wall next = .apart)
    (hrest : passAll meet again rest = .ok rest') :
    pass meet again wall rest = .ok (wall :: rest') := by
  cases rest with
  | nil =>
    cases hrest
    rfl
  | cons next rest =>
    rw [pass_apart (hafter next rfl)]
    exact congrArg (Except.map (wall :: ·)) hrest

/-- A pass makes of each side of a wall what it would make of it alone. -/
theorem pass_append (hbefore : ∀ term, meet term wall = .apart)
    (hafter : ∀ next, meet wall next = .apart) {term : Term} {body body' : List Term}
    (hbody : pass meet false term body = .ok body') (hrest : passAll meet false rest = .ok rest') :
    pass meet false term (body ++ wall :: rest) = .ok (body' ++ wall :: rest') := by
  have hwall := pass_of_apart (fun next _ => hafter next) hrest
  -- The group goes on with the wall wherever the body alone comes to its end.
  fun_induction pass meet false term body generalizing body' with
  | case1 term =>
    cases hbody
    rw [List.nil_append, pass_apart (hbefore term), hwall]
    rfl
  | case2 term next body hmeet ih =>
    obtain ⟨others, hothers, rfl⟩ := map_eq_ok_iff.mp hbody
    rw [List.cons_append, pass_apart hmeet, ih hothers]
    rfl
  | case3 => cases hbody
  | case4 => contradiction
  | case5 term next value magnitude hmeet =>
    cases hbody
    rw [List.singleton_append, pass_join hmeet, hwall]
    rfl
  | case6 term next value magnitude hmeet _ _ third body =>
    rename_i ih
    obtain ⟨others, hothers, rfl⟩ := map_eq_ok_iff.mp hbody
    rw [List.cons_append, List.cons_append, pass_join hmeet, ih hothers]
    rfl

/-- A term that stays apart from every other divides a group. -/
theorem passAll_append (hbefore : ∀ term, meet term wall = .apart)
    (hafter : ∀ next, meet wall next = .apart) {body body' : List Term}
    (hbody : passAll meet false body = .ok body') (hrest : passAll meet false rest = .ok rest') :
    passAll meet false (body ++ wall :: rest) = .ok (body' ++ wall :: rest') := by
  cases body with
  | nil =>
    cases hbody
    exact pass_of_apart (fun next _ => hafter next) hrest
  | cons term body => exact pass_append hbefore hafter hbody hrest

end

end Verse.Number
