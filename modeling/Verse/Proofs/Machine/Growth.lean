import Verse.Proofs.Machine.Operation
import Verse.Proofs.Numeric.Increment

/-!
# What `Become` makes of a number

A number becomes the next whole number away from zero, as far as one more can be added to it.  From
`2 ^ 53` on, where all doubles are even, the multiples of four stay what they are, and the numbers
between them become the next multiple of four.

* `grown`, `Remains`                      what a magnitude becomes, and when it stays what it is
* `exists_rational?_grow_eq`              what a number becomes
* `become_literal`, `become_variable`     where it is written to
* `only_great_multiples_of_four_remain`   everything that `Become` does
-/

namespace Verse

namespace Machine

open Numeric

/-! ## What a number becomes -/

/-- What a magnitude becomes, told by its whole part. -/
def grown (n : ℤ) : ℤ :=
  if n < 2 ^ 53 then n + 1 else if 4 ∣ n then n else n + 2

/-- A magnitude that becomes itself: a multiple of four that is not below `2 ^ 53`. -/
def Remains (x : ℚ) : Prop :=
  2 ^ 53 ≤ x ∧ 4 ∣ ⌊x⌋

/-- What a magnitude becomes is not zero. -/
theorem grown_pos {n : ℤ} (h : 0 ≤ n) : 0 < grown n := by
  rw [grown]
  split
  · omega
  · split <;> omega

section

variable {x : ℚ} (hwhole : 2 ^ 53 ≤ x → (⌊x⌋ : ℚ) = x)
include hwhole

/-- A magnitude that remains becomes itself. -/
theorem grown_floor_eq (h : Remains x) : (grown ⌊x⌋ : ℚ) = x := by
  obtain ⟨hle, hfour⟩ := h
  have hnot : ¬ ⌊x⌋ < 2 ^ 53 := by
    rw [Int.floor_lt]
    push_cast
    exact not_lt.mpr hle
  rw [grown, if_neg hnot, if_pos hfour, hwhole hle]

/-- Every other magnitude becomes a greater one. -/
theorem lt_grown_floor_iff : x < grown ⌊x⌋ ↔ ¬ Remains x := by
  refine ⟨fun hlt hremains => hlt.ne' (grown_floor_eq hwhole hremains), fun hremains => ?_⟩
  rw [grown]
  split
  case isTrue h =>
    push_cast
    exact Int.lt_floor_add_one x
  case isFalse h =>
    have hle : 2 ^ 53 ≤ x := by
      rw [Int.floor_lt, not_lt] at h
      exact_mod_cast h
    rw [if_neg fun hfour => hremains ⟨hle, hfour⟩]
    push_cast
    rw [hwhole hle]
    linarith

end

section

variable {v : Float} {negative : Bool} {mantissa : Nat} {exponent : Int}
  (hv : decode v = .finite negative mantissa exponent) (hm : 0 < mantissa)
include hv hm

/-- A number that is not whole is rounded. -/
theorem rational?_grow_of_not_whole
    (hwhole : (ceiling mantissa exponent : ℚ) ≠ mantissa * 2 ^ exponent) :
    rational? (grow v) = some ((signed negative (ceiling mantissa exponent) : ℤ) : ℚ) ∧
      (ceiling mantissa exponent : ℤ) = grown ⌊(mantissa * 2 ^ exponent : ℚ)⌋ := by
  have he : exponent < 0 := by
    by_contra hle
    exact hwhole (natCast_ceiling_of_nonneg mantissa (not_lt.mp hle))
  have hle := ceiling_le_of_neg hv he
  have hpos : 0 < ceiling mantissa exponent :=
    Nat.pos_of_ne_zero ((ceiling_eq_zero_iff _ _).not.mpr hm.ne')
  have hlt : ceiling mantissa exponent < 2 ^ 53 := by omega
  have hceil := natCast_ceiling mantissa exponent
  constructor
  · have hround : roundAway v = ofWhole negative (ceiling mantissa exponent) := by
      simp only [roundAway, hv, if_pos he]
    have hgrow : grow v = roundAway v := by
      rw [grow]
      simp only [if_neg ((roundAway_beq_iff hv hm).not.mpr hwhole)]
    rw [hgrow, hround, rational?, decode_ofWhole negative hpos hlt]
    simp only [dyadic_normal negative hpos hlt]
  · -- The next whole number above is the one after the floor.
    have hnext : ⌈(mantissa * 2 ^ exponent : ℚ)⌉ = ⌊(mantissa * 2 ^ exponent : ℚ)⌋ + 1 := by
      rw [Int.ceil_eq_floor_add_one_iff_notMem]
      rintro ⟨k, hk⟩
      rw [← hk, Int.ceil_intCast] at hceil
      exact hwhole (by rw [← hk, ← hceil, Int.cast_natCast])
    rw [hceil, hnext, grown, if_pos (by omega)]

/-- What a number becomes. -/
theorem exists_rational?_grow :
    ∃ r e, rational? (grow v) = some (dyadic negative r e) ∧
      (r * 2 ^ e : ℚ) = grown ⌊(mantissa * 2 ^ exponent : ℚ)⌋ := by
  by_cases hwhole : (ceiling mantissa exponent : ℚ) = mantissa * 2 ^ exponent
  · -- A whole number, to which one is added or from which one is subtracted.
    have hgrow : grow v = if v < 0.0 then v - 1.0 else v + 1.0 := by
      rw [grow]
      simp only [if_pos ((roundAway_beq_iff hv hm).mpr hwhole)]
    rw [hgrow]
    obtain hlt | hle := lt_or_ge (mantissa * 2 ^ exponent : ℚ) (2 ^ 53)
    · -- Below `2 ^ 53` the sum is held exactly.
      have he : -52 ≤ exponent := le_exponent_of_whole hv hm hwhole
      have hlt' : ceiling mantissa exponent < 2 ^ 53 := by
        rw [← hwhole] at hlt
        exact_mod_cast hlt
      obtain ⟨r, e, hr, hvalue⟩ := rational?_one_more_of_lt hv hm he hwhole.symm hlt'
      refine ⟨r, e, hr, ?_⟩
      rw [hvalue, ← hwhole, Int.floor_natCast, grown, if_pos (by omega)]
      push_cast
      rfl
    · -- From there on the sum is rounded, and comes to a multiple of four.
      obtain ⟨n, rfl, hn, hlow⟩ := exists_exponent_of_le hv hle
      obtain ⟨r, e, hr, hvalue⟩ := rational?_one_more_of_le hv hn hlow
      refine ⟨r, e, hr, ?_⟩
      have hk : (mantissa * 2 ^ (n : ℤ) : ℚ) = (mantissa * 2 ^ n : ℕ) := by
        push_cast
        rw [zpow_natCast]
      rw [hk] at hle
      have hle' : 2 ^ 53 ≤ mantissa * 2 ^ n := by exact_mod_cast hle
      rw [hvalue, hk, Int.floor_natCast]
      generalize mantissa * 2 ^ n = k at hle'
      have hgrown : grown k = (if 4 ∣ k then k else k + 2 : ℕ) := by
        rw [grown, if_neg (by omega)]
        split <;> split <;> omega
      rw [hgrown, Int.cast_natCast]
  · -- A number that is not whole, which is rounded away from zero.
    obtain ⟨hrational, hvalue⟩ := rational?_grow_of_not_whole hv hm hwhole
    refine ⟨ceiling mantissa exponent, 0, ?_, ?_⟩
    · rw [hrational, dyadic, zpow_zero, mul_one]
    · rw [← hvalue, zpow_zero, mul_one, Int.cast_natCast]

end

/-- What a number becomes is whole and has its sign, and its magnitude is greater unless it
    remains. -/
theorem exists_rational?_grow_eq {v : Float} {q : ℚ} (hq : rational? v = some q) (hne : q ≠ 0) :
    ∃ r : ℤ, rational? (grow v) = some (r : ℚ) ∧ SignType.sign r = SignType.sign q ∧
      |r| = grown ⌊|q|⌋ ∧ (|q| < |r| ↔ ¬ Remains |q|) ∧ (Remains |q| → (r : ℚ) = q) := by
  obtain ⟨negative, mantissa, exponent, hv, rfl⟩ := rational?_eq_some_iff.mp hq
  have hm : 0 < mantissa := Nat.pos_of_ne_zero (dyadic_eq_zero_iff.not.mp hne)
  obtain ⟨r, e, hr, hvalue⟩ := exists_rational?_grow hv hm
  have hpos : (0 : ℚ) < mantissa * 2 ^ exponent :=
    mul_pos (Nat.cast_pos.mpr hm) (zpow_pos two_pos _)
  -- Doubles that great are whole, so their floor is what they are.
  have hwhole : (2 ^ 53 : ℚ) ≤ mantissa * 2 ^ exponent →
      (⌊(mantissa * 2 ^ exponent : ℚ)⌋ : ℚ) = mantissa * 2 ^ exponent := by
    intro hle
    obtain ⟨n, rfl, -, -⟩ := exists_exponent_of_le hv hle
    rw [← natCast_ceiling_of_nonneg mantissa (Int.natCast_nonneg n), Int.floor_natCast,
      Int.cast_natCast]
  rw [hr, dyadic_eq_ite, abs_dyadic, dyadic_eq_ite, hvalue]
  generalize (mantissa * 2 ^ exponent : ℚ) = x at hpos hwhole
  have hgrown : 0 < grown ⌊x⌋ := grown_pos (Int.floor_nonneg.mpr hpos.le)
  -- The two signs differ in which of the bounds is turned around.
  cases negative with
  | false =>
    refine ⟨grown ⌊x⌋, by simp, ?_, abs_of_pos hgrown, ?_, ?_⟩
    · rw [sign_pos hgrown, if_neg (by simp), sign_pos hpos]
    · rw [abs_of_pos hgrown]
      exact lt_grown_floor_iff hwhole
    · simpa using grown_floor_eq hwhole
  | true =>
    refine ⟨-grown ⌊x⌋, by simp, ?_, ?_, ?_, ?_⟩
    · rw [sign_neg (by omega), if_pos rfl, sign_neg (by linarith)]
    · rw [abs_neg, abs_of_pos hgrown]
    · rw [abs_neg, abs_of_pos hgrown]
      exact lt_grown_floor_iff hwhole
    · simpa using grown_floor_eq hwhole

/-! ## What is written -/

section

variable {m : Machine} {rung : Rung} {value : Float} {q : ℚ}
  (hrung : m.tape[m.delegate]? = some rung) (hread : (m.readAt m.delegate).1 = some value)
include hrung hread

/-- A zero is no number that is drawn. -/
theorem become_zero (hq : rational? value = some 0) :
    m.become = { m with tape := m.tape.set m.delegate (toHeaven rung) } := by
  have hzero : (value == 0.0) = true := (beq_zero_iff_of_rational? hq).mpr rfl
  have hoffset : offset value = 0 := (offset_eq_zero_iff value).mpr (.inr hzero)
  rw [become]
  simp only [readAt_eq_of_offset_eq_zero hread hoffset, if_pos hzero]
  exact modify_eq_set hrung toHeaven

/-- Any other number of a literal grows in its place. -/
theorem become_literal (hzero : (value == 0.0) = false) {old : Float}
    (hcell : rung.cell = .literal old) :
    m.become =
      { m with tape := m.tape.set m.delegate { rung with cell := .literal (grow value) } } := by
  have hreads : m.readAt m.delegate = (some value, m) := by
    simp only [readAt, hrung, read, hcell] at hread ⊢
    rw [hread]
  have hname : rung.variableName? = none := by rw [Rung.variableName?, hcell]
  rw [become]
  simp only [hreads, hzero, Bool.false_eq_true, if_false, hrung, Option.bind_some, hname, assignAt,
    hcell]
  rw [modify_eq_set hrung, setLiteral, hcell]

/-- Any other number of a variable grows in the variable, whose element advances. -/
theorem become_variable (hzero : (value == 0.0) = false) {name : String}
    (hcell : rung.cell = .variable name) :
    ∃ vars : Variables, (∀ other, vars.get? other =
      if name = other then some
        { element := (if m.vars.elementOf name = .void then .earth
            else m.vars.elementOf name).advance .create, binding := .value (grow value) }
      else m.vars.get? other) ∧ m.become = { m with vars } := by
  have hreads : m.readAt m.delegate = (some value, m) := by
    simp only [readAt, hrung, read, hcell] at hread ⊢
    rw [hread]
  have hname : rung.variableName? = some name := by rw [Rung.variableName?, hcell]
  refine ⟨(m.vars.assign name (grow value) none).advance name .create, ?_, ?_⟩
  · -- The variable is looked up after both changes, and every other one is as it was.
    intro other
    by_cases h : name = other
    · subst h
      rw [if_pos rfl, Variables.advance, Variables.get?_assign, if_pos rfl]
      dsimp only
      rw [Variables.get?_set, if_pos rfl]
      rfl
    · rw [if_neg h, Variables.get?_advance_of_ne _ h, Variables.get?_assign, if_neg h]
  · rw [become]
    simp only [hreads, hzero, Bool.false_eq_true, if_false, hrung, Option.bind_some, hname, assignAt,
      hcell, advanceAt]

end

/-- What `Become` does with the number of a literal or a variable, for every finite double.

    A zero of either sign turns the rung into `Heaven` with the element earth, and nothing else
    changes.  Any other number becomes a whole number of its sign: below `2 ^ 53` the next one, and
    from there on, where all doubles are even, the next multiple of four.  So a number that is such a
    multiple already remains what it is, and no other number does.  A variable advances its element
    along `create`, and a variable that has a number never lacks an element in a run. -/
theorem only_great_multiples_of_four_remain (m : Machine) {rung : Rung} {value : Float} {q : ℚ}
    (hrung : m.tape[m.delegate]? = some rung) (hread : (m.readAt m.delegate).1 = some value)
    (hq : rational? value = some q) :
    (q = 0 → m.dispatch .become = (.proceed, { m with
      tape := m.tape.set m.delegate { rung with cell := .command .heaven, element := .earth } })) ∧
    (q ≠ 0 → ∃ (result : Float) (r : ℤ), rational? result = some (r : ℚ) ∧
      SignType.sign r = SignType.sign q ∧ |r| = grown ⌊|q|⌋ ∧
      (|q| < |r| ↔ ¬ Remains |q|) ∧ (Remains |q| → (r : ℚ) = q) ∧
      (∀ old, rung.cell = .literal old → m.dispatch .become = (.proceed, { m with
        tape := m.tape.set m.delegate { rung with cell := .literal result } })) ∧
      ∀ name, rung.cell = .variable name → ∃ vars : Variables,
        (∀ other, vars.get? other =
          if name = other then some
            { element := (if m.vars.elementOf name = .void then .earth
                else m.vars.elementOf name).advance .create, binding := .value result }
          else m.vars.get? other) ∧
        m.dispatch .become = (.proceed, { m with vars })) ∧
    ∀ (program : List Rung) (n : Nat) (name : String),
      ((m.pointAt program n).machine.vars.value? name).isSome = true →
        (m.pointAt program n).machine.vars.elementOf name ≠ .void := by
  refine ⟨?_, fun hne => ?_, m.endowed_pointAt⟩
  · rintro rfl
    exact congrArg (Prod.mk Signal.proceed) (become_zero hrung hread hq)
  · have hzero : (value == 0.0) = false :=
      Bool.eq_false_iff.mpr ((beq_zero_iff_of_rational? hq).not.mpr hne)
    obtain ⟨r, hr, hsign, hgrown, hlt, hremains⟩ := exists_rational?_grow_eq hq hne
    refine ⟨grow value, r, hr, hsign, hgrown, hlt, hremains, fun old hcell => ?_,
      fun name hcell => ?_⟩
    · exact congrArg (Prod.mk Signal.proceed) (become_literal hrung hread hzero hcell)
    · obtain ⟨vars, hvars, hbecome⟩ := become_variable hrung hread hzero hcell
      exact ⟨vars, hvars, congrArg (Prod.mk Signal.proceed) hbecome⟩

/-- A machine that is to become something, with the number of a literal. -/
def becoming (value : Float) : Machine where
  tape := [{ position := .input 0, name := "", element := .wood, cell := .literal value },
    { position := .input 0, name := "", element := .earth, cell := .command .become }]
  bureaucrat := 1
  generator := .ofSeed 0

/-- Minus five halves becomes minus three. -/
theorem only_great_multiples_of_four_remain_fraction :
    ∃ result, rational? result = some (-3) ∧ ((becoming (-2.5)).dispatch .become).2.tape[0]? =
      some { position := .input 0, name := "", element := .wood, cell := .literal result } := by
  have hdecode : decode (-2.5) = .finite true 5629499534213120 (-51) := by decide +kernel
  have hq : rational? (-2.5) = some (-(5 / 2)) := by
    rw [rational?, hdecode]
    norm_num [dyadic, signed]
  obtain ⟨-, hgrows, -⟩ := only_great_multiples_of_four_remain (becoming (-2.5)) rfl rfl hq
  obtain ⟨result, r, hr, hsign, hgrown, -, -, hliteral, -⟩ := hgrows (by norm_num)
  have hfloor : ⌊|(-(5 / 2) : ℚ)|⌋ = 2 := by
    rw [Int.floor_eq_iff, abs_neg, abs_of_pos (by norm_num)]
    norm_num
  have hr3 : r = -3 := by
    rw [hfloor] at hgrown
    have hneg : SignType.sign r = -1 := by rw [hsign, sign_neg (by norm_num)]
    have hlt : r < 0 := sign_eq_neg_one_iff.mp hneg
    rw [abs_of_neg hlt] at hgrown
    have hthree : grown 2 = 3 := by decide
    omega
  refine ⟨result, by rw [hr, hr3]; norm_num, ?_⟩
  rw [hliteral _ rfl]
  rfl

/-- Two to the power of 53 becomes itself. -/
theorem great_power_of_two_remains :
    rational? 9007199254740992.0 = some (2 ^ 53) ∧
      ((becoming 9007199254740992.0).dispatch .become).2.tape =
        (becoming 9007199254740992.0).tape := by
  constructor
  · have hdecode : decode 9007199254740992.0 = .finite false (2 ^ 52) 1 := by decide +kernel
    rw [rational?, hdecode]
    norm_num [dyadic, signed]
  · decide +kernel

end Machine

end Verse
