import Verse.Proofs.Machine.Cursors
import Verse.Proofs.Machine.March
import Verse.Proofs.Numeric.Parity

/-!
# Where the cursors go

Offsets are held within 64 bits when a number is rounded, when an offset is reversed, and when it is
added to a cursor.  None of this is ever seen: a tape is shorter than the greatest offset, and where
an offset is held back both it and the number itself lead beyond the same end of the tape.  So the
cursors go where they would go by whole numbers without bounds.

* `seen`                                             where a target shows on a tape
* `seen_offset`, `seen_reverse`                      the offsets lead where the numbers lead
* `cursors_go_as_if_unbounded`                       what the five commands do to the cursors
* `only_infinities_blossom_against_their_polarity`   which way `Blossom` goes
-/

namespace Verse

open Numeric

/-! ## Numbers without bounds -/

namespace Numeric

/-- The whole number that a double is rounded to away from zero, without bounds.  NaN is taken for
    zero, and an infinity for a number that is as far away as is asked for. -/
def unbounded (far : Nat) (v : Float) : Int :=
  match decode v with
  | .nan => 0
  | .infinite negative => signed negative far
  | .finite negative mantissa exponent => away (dyadic negative mantissa exponent)

/-- Whether `Blossom` goes forward: by an odd number, but by no infinity. -/
def blossomsForward (v : Float) : Bool :=
  match rational? v with
  | some q => decide (Odd (away q))
  | none => false

/-- Where a target shows on a tape: beyond either end, all targets are alike. -/
def seen (len : Nat) (target : Int) : Int :=
  max (-1) (min len target)

variable {v : Float} {cursor len far : Nat}

/-- A number is zero without bounds just if it is so with them. -/
theorem unbounded_eq_zero_iff (hfar : 0 < far) : unbounded far v = 0 ↔ offset v = 0 := by
  cases hv : decode v with
  | nan => simp only [unbounded, offset, hv]
  | infinite negative =>
    simp only [unbounded, offset, hv, signed_eq_zero_iff]
    cases negative <;> simp [maxOffset, minOffset, hfar.ne']
  | finite negative mantissa exponent =>
    simp only [unbounded, offset, hv, ← signed_ceiling, saturate_eq_zero_iff]

/-- The parity that `Blossom` looks at is that of the number without bounds, but for an infinity.
    -/
theorem isOddOffset_offset_eq (v : Float) : isOddOffset (offset v) = blossomsForward v := by
  rw [blossomsForward]
  cases hv : decode v with
  | nan =>
    rw [offset, rational?, hv]
    rfl
  -- The offset of an infinity is one of the bounds, and the bounds are even.
  | infinite negative =>
    rw [isOddOffset_offset_infinite hv, rational?, hv]
  | finite negative mantissa exponent =>
    have hq : rational? v = some (dyadic negative mantissa exponent) := by rw [rational?, hv]
    rw [isOddOffset_offset_finite hv, hq]
    exact Bool.eq_iff_iff.mpr ((isOdd_iff_odd_away hq).trans decide_eq_true_iff.symm)

section

variable (hlt : cursor < len) (hmax : len < 2 ^ 63) (hfar : len ≤ far)
include hlt hmax hfar

/-- A cursor that is moved by an offset ends where it would end without bounds, or beyond the same
    end of the tape. -/
theorem seen_offset (v : Float) :
    seen len (saturate (cursor + offset v)) = seen len (cursor + unbounded far v) := by
  -- Both sums are compared with the ends of the tape, which are within the bounds.
  simp only [seen]
  cases hv : decode v with
  | nan =>
    simp only [offset, unbounded, hv, saturate, maxOffset, minOffset]
    omega
  | infinite negative =>
    cases negative <;>
      simp only [offset, unbounded, hv, signed, saturate, maxOffset, minOffset, if_true,
        Bool.false_eq_true, if_false] <;>
      omega
  | finite negative mantissa exponent =>
    simp only [offset, unbounded, hv, signed_ceiling, saturate, maxOffset, minOffset]
    omega

/-- The same for an offset that is reversed. -/
theorem seen_reverse (v : Float) :
    seen len (saturate (cursor + reverse (offset v))) = seen len (cursor - unbounded far v) := by
  simp only [seen]
  cases hv : decode v with
  | nan =>
    simp only [offset, unbounded, hv, reverse, saturate, maxOffset, minOffset]
    omega
  | infinite negative =>
    cases negative <;>
      simp only [offset, unbounded, hv, reverse, signed, saturate, maxOffset, minOffset, if_true,
        Bool.false_eq_true, if_false] <;>
      omega
  | finite negative mantissa exponent =>
    simp only [offset, unbounded, hv, reverse, signed_ceiling, saturate, maxOffset, minOffset]
    omega

end

end Numeric

/-- How far a number sends the bureaucrat, without bounds. -/
def Command.reach (command : Command) (far : Nat) (value : Float) : Int :=
  match command with
  | .promote => unbounded far value
  | .demote => -unbounded far value
  | .blossom => if blossomsForward value then unbounded far value else -unbounded far value
  | _ => 0

namespace Machine

open Command

variable {m : Machine} {command : Command} {value : Float} {far : Nat} {k d : Int}

/-! ## The bureaucrat -/

/-- The bureaucrat has been moved by `d`.  At the end of the tape or beyond, it stops at the end and
    the run is over, and before the start it stops at the start.  The delegate is pulled down with
    it. -/
structure MovesBy (m : Machine) (d : Int) (result : Signal × Machine) : Prop where
  beyond : (m.tape.length : Int) ≤ m.bureaucrat + d →
    result.1 = .stop .fatal ∧ result.2.bureaucrat = m.tape.length ∧ result.2.delegate = m.delegate
  within : m.bureaucrat + d < m.tape.length →
    result.1 = .proceed ∧ (result.2.bureaucrat : Int) = max 0 (m.bureaucrat + d) ∧
      result.2.delegate = min m.delegate result.2.bureaucrat

/-- To be moved by zero is to stay. -/
theorem OnTape.movesBy_zero (h : m.OnTape) : m.MovesBy 0 (.proceed, m) where
  beyond hbeyond := by
    have := h.bureaucrat_lt
    omega
  within _ := by
    refine ⟨rfl, ?_, (Nat.min_eq_left h.delegate_le).symm⟩
    show (m.bureaucrat : Int) = _
    omega

/-- Two targets that show at the same place are the same move. -/
theorem movesBy_march (h : m.OnTape) (how : March)
    (hseen : seen m.tape.length (saturate (m.bureaucrat + k)) =
      seen m.tape.length (m.bureaucrat + d)) :
    m.MovesBy d (m.march how k) := by
  have hdelegate := h.delegate_lt
  simp only [seen] at hseen
  unfold march
  dsimp only
  -- Whatever is beyond an end is seen there, so the target itself is not needed.
  generalize saturate (m.bureaucrat + k) = target at hseen
  split
  case isTrue hpast =>
    refine ⟨fun _ => ⟨rfl, rfl, Nat.min_eq_left hdelegate.le⟩, fun hwithin => ?_⟩
    omega
  case isFalse hpast =>
    refine ⟨fun hbeyond => ?_, fun hwithin => ⟨rfl, ?_, ?_⟩⟩
    · omega
    · show (target.toNat : Int) = _
      omega
    · split <;> rfl

/-- The offset of each of the three commands leads where the number leads. -/
theorem seen_stride (h : m.OnTape) (hmax : m.tape.length < 2 ^ 63) (hfar : m.tape.length ≤ far)
    (hmarch : command.isMarch = true) (value : Float) :
    seen m.tape.length (saturate (m.bureaucrat + command.stride value)) =
      seen m.tape.length (m.bureaucrat + command.reach far value) := by
  cases command with
  | promote => exact seen_offset h.bureaucrat_lt hmax hfar value
  | demote => exact seen_reverse h.bureaucrat_lt hmax hfar value
  | blossom =>
    simp only [stride, reach, isOddOffset_offset_eq]
    split
    · exact seen_offset h.bureaucrat_lt hmax hfar value
    · exact seen_reverse h.bureaucrat_lt hmax hfar value
  | _ => cases hmarch

/-- The three commands move the bureaucrat as far as the number reaches. -/
theorem movesBy_dispatch (h : m.OnTape) (hmax : m.tape.length < 2 ^ 63)
    (hfar : m.tape.length ≤ far) (hmarch : command.isMarch = true)
    (hvalue : m.operand? = some value) :
    m.MovesBy (command.reach far value) (m.dispatch command) := by
  have hpos : 0 < far := by
    have := h.bureaucrat_lt
    omega
  have hmarches := m.marches_dispatch hmarch
  generalize m.dispatch command = result at hmarches
  cases hmarches with
  | rest hrest =>
    -- A number that does not move the bureaucrat is zero, as far as cursors are concerned.
    have hoffset : offset value = 0 := by
      by_contra hne
      exact hrest value hvalue (.inl hne)
    have hreach : command.reach far value = 0 := by
      have hzero : unbounded far value = 0 := (unbounded_eq_zero_iff hpos).mpr hoffset
      cases command <;> simp [reach, hzero]
    rw [hreach]
    exact h.movesBy_zero
  | @move other hread hmoved generator hdraw journal how =>
    obtain rfl := Option.some.inj (hvalue.symm.trans hread)
    obtain ⟨hbeyond, hwithin⟩ :=
      movesBy_march (m := { m with generator, journal }) ⟨h.delegate_le, h.bureaucrat_lt⟩ how
        (seen_stride h hmax hfar hmarch value)
    exact ⟨hbeyond, hwithin⟩

/-! ## The delegate -/

/-- The number just before the bureaucrat. -/
def precedent? (m : Machine) : Option Float :=
  if m.bureaucrat = 0 then none else (m.readAt (m.bureaucrat - 1)).1

/-- How far the delegate is sent, without bounds: by the number just before the bureaucrat, or by
    one. -/
def driftReach (m : Machine) (far : Nat) : Int :=
  match m.precedent? with
  | some value => unbounded far value
  | none => 1

/-- The delegate has been moved by `d`, no further than the start of the tape and the
    bureaucrat. -/
structure DriftsBy (m : Machine) (d : Int) (result : Signal × Machine) : Prop where
  proceeds : result.1 = .proceed
  bureaucrat_eq : result.2.bureaucrat = m.bureaucrat
  delegate_eq : (result.2.delegate : Int) = max 0 (min (m.bureaucrat : Int) (m.delegate + d))

/-- Drifting moves the delegate to where the number leads, as far as the bureaucrat lets it. -/
theorem driftsBy_drift (how : Drift)
    (hseen : seen (m.bureaucrat + 1) (saturate (m.delegate + k)) =
      seen (m.bureaucrat + 1) (m.delegate + d)) : m.DriftsBy d (.proceed, m.drift how k) := by
  -- A remark on a negative offset comes first, and touches the journal only.
  have hremark : ∀ m₁ : Machine, m₁.bureaucrat = m.bureaucrat → m₁.delegate = m.delegate →
      m.DriftsBy d (.proceed,
        let target := saturate (m₁.delegate + k)
        if target < 0 then { m₁.notice (.driftedBelow how) with delegate := 0 }
        else if m₁.bureaucrat < target then
          { m₁.notice (.driftedAbove how) with delegate := m₁.bureaucrat }
        else { m₁ with delegate := target.toNat }) := by
    intro m₁ hbureaucrat hdelegate
    simp only [seen] at hseen
    rw [hdelegate]
    dsimp only
    generalize saturate (m.delegate + k) = target at hseen
    split
    case isTrue hbelow =>
      refine ⟨rfl, hbureaucrat, ?_⟩
      show ((0 : Nat) : Int) = _
      omega
    case isFalse hbelow =>
      split
      case isTrue habove =>
        refine ⟨rfl, hbureaucrat, ?_⟩
        show (m₁.bureaucrat : Int) = _
        omega
      case isFalse habove =>
        refine ⟨rfl, hbureaucrat, ?_⟩
        show (target.toNat : Int) = _
        omega
  unfold drift
  split
  · exact hremark _ rfl rfl
  · exact hremark m rfl rfl

/-- The delegate's offset is that of the number before the bureaucrat, or of one. -/
theorem driftOffset_eq (m : Machine) :
    ∃ generator, m.driftOffset = (offset (m.precedent?.getD 1.0), { m with generator }) := by
  by_cases hstart : m.bureaucrat = 0
  · exact ⟨m.generator, by simp [driftOffset, precedent?, hstart]⟩
  · obtain ⟨generator, hread⟩ := m.exists_generator_readAt (m.bureaucrat - 1)
    exact ⟨generator, by simp [driftOffset, precedent?, hstart, hread]⟩

/-- What the delegate reaches is the number before the bureaucrat, or one. -/
theorem unbounded_precedent (m : Machine) (far : Nat) :
    unbounded far (m.precedent?.getD 1.0) = m.driftReach far := by
  rw [driftReach]
  cases m.precedent? with
  | some value => rfl
  | none =>
    have hone : decode 1.0 = .finite false (2 ^ 52) (-52) := by decide +kernel
    show unbounded far 1.0 = 1
    rw [unbounded, hone]
    norm_num [dyadic, signed, away]

/-- Either of the two commands moves the delegate by the offset before the bureaucrat, as it is or
    reversed. -/
theorem driftsBy_driftOffset (how : Drift) (turn : Int → Int)
    (hseen : seen (m.bureaucrat + 1) (saturate (m.delegate + turn (offset (m.precedent?.getD 1.0)))) =
      seen (m.bureaucrat + 1) (m.delegate + d)) :
    m.DriftsBy d (.proceed, m.driftOffset.2.drift how (turn m.driftOffset.1)) := by
  obtain ⟨generator, hoffset⟩ := m.driftOffset_eq
  obtain ⟨hproceeds, hbureaucrat, hdelegate⟩ :=
    driftsBy_drift (m := { m with generator }) how hseen
  rw [hoffset]
  exact ⟨hproceeds, hbureaucrat, hdelegate⟩

/-- `Rise` and `Fall` move the delegate as far as the number reaches, up or down. -/
theorem driftsBy_dispatch (h : m.OnTape) (hmax : m.tape.length < 2 ^ 63)
    (hfar : m.tape.length ≤ far) :
    m.DriftsBy (m.driftReach far) (m.dispatch .rise) ∧
      m.DriftsBy (-m.driftReach far) (m.dispatch .fall) := by
  -- For the delegate the tape ends right behind the bureaucrat.
  have hlt : m.delegate < m.bureaucrat + 1 := Nat.lt_succ_of_le h.delegate_le
  have hle : m.bureaucrat + 1 ≤ m.tape.length := h.bureaucrat_lt
  have hrise := seen_offset hlt (by omega) (hle.trans hfar) (m.precedent?.getD 1.0)
  have hfall := seen_reverse hlt (by omega) (hle.trans hfar) (m.precedent?.getD 1.0)
  rw [unbounded_precedent] at hrise hfall
  exact ⟨driftsBy_driftOffset .rose id hrise, driftsBy_driftOffset .fell reverse hfall⟩

/-! ## All five commands -/

/-- Every command that moves a cursor leaves the cursors where whole numbers without bounds would put
    them, whatever the number is.

    `Promote`, `Demote` and `Blossom` move the bureaucrat by the number at the delegate, forward,
    back, or forward if it is odd, and do nothing without a number.  `Rise` and `Fall` move the
    delegate by the number before the bureaucrat, or by one without a number, and keep it between the
    start of the tape and the bureaucrat.  An infinity is as good as any number that leads from one
    end of the tape beyond the other. -/
theorem cursors_go_as_if_unbounded {m : Machine} (h : m.OnTape) (hmax : m.tape.length < 2 ^ 63)
    {far : Nat} (hfar : m.tape.length ≤ far) :
    (∀ command : Command, command.isMarch = true →
      (m.operand? = none → m.dispatch command = (.proceed, m)) ∧
      ∀ value, m.operand? = some value →
        m.MovesBy (command.reach far value) (m.dispatch command)) ∧
    m.DriftsBy (m.driftReach far) (m.dispatch .rise) ∧
    m.DriftsBy (-m.driftReach far) (m.dispatch .fall) := by
  refine ⟨fun command hmarch => ⟨fun hnone => ?_, fun value hvalue => ?_⟩,
    driftsBy_dispatch h hmax hfar⟩
  · -- Without a number the three commands do nothing.
    have hmarches := m.marches_dispatch hmarch
    generalize m.dispatch command = result at hmarches
    cases hmarches with
    | rest _ => rfl
    | move hread _ _ _ _ =>
      rw [operand?] at hnone
      rw [hnone] at hread
      cases hread
  · exact movesBy_dispatch h hmax hfar hmarch hvalue

/-- A machine that is to execute a command, with the number of a literal. -/
def commanding (command : Command) (value : Float) : Machine where
  tape := [{ position := .input 0, name := "", element := .earth, cell := .literal value },
    { position := .input 0, name := "", element := .earth, cell := .command command }]
  bureaucrat := 1
  generator := .ofSeed 0

/-- The cursors of that machine are on its tape. -/
theorem onTape_commanding (command : Command) (value : Float) : (commanding command value).OnTape :=
  ⟨Nat.zero_le 1, Nat.lt_succ_self 1⟩

/-- The least offset has no opposite, and still `Demote` leads beyond the end. -/
theorem cursors_go_as_if_unbounded_least :
    unbounded 2 (-9223372036854775808.0) = -2 ^ 63 ∧
      ((commanding .demote (-9223372036854775808.0)).dispatch .demote).1 = .stop .fatal ∧
      ((commanding .demote (-9223372036854775808.0)).dispatch .demote).2.bureaucrat = 2 := by
  have hdecode : decode (-9223372036854775808.0) = .finite true (2 ^ 52) 11 := by decide +kernel
  have hvalue : unbounded 2 (-9223372036854775808.0) = -2 ^ 63 := by
    rw [unbounded, hdecode]
    norm_num [dyadic, signed, away]
  have hfar : (commanding .demote (-9223372036854775808.0)).tape.length ≤ 2 := le_refl 2
  obtain ⟨hmarches, -, -⟩ := cursors_go_as_if_unbounded
    (onTape_commanding .demote (-9223372036854775808.0)) (by decide) hfar
  obtain ⟨hbeyond, -⟩ := (hmarches .demote rfl).2 _ rfl
  obtain ⟨hstop, hbureaucrat, -⟩ := hbeyond (by
    show (2 : Int) ≤ 1 + -unbounded 2 (-9223372036854775808.0)
    rw [hvalue]
    norm_num)
  exact ⟨hvalue, hstop, hbureaucrat⟩

/-! ## Which way `Blossom` goes -/

/-- Two opposite moves never lead to the same place. -/
theorem MovesBy.eq_zero {result : Signal × Machine} (hforward : m.MovesBy d result)
    (hback : m.MovesBy (-d) result) (h : m.OnTape) : d = 0 := by
  have hlt := h.bureaucrat_lt
  obtain hbeyond | hwithin := le_or_gt (m.tape.length : Int) (m.bureaucrat + d)
  · -- The one ends the run and the other does not.
    have hproceed := (hback.within (by omega)).1
    rw [(hforward.beyond hbeyond).1] at hproceed
    cases hproceed
  · obtain hbeyond' | hwithin' := le_or_gt (m.tape.length : Int) (m.bureaucrat + -d)
    · have hproceed := (hforward.within hwithin).1
      rw [(hback.beyond hbeyond').1] at hproceed
      cases hproceed
    · -- Neither ends the run, so both places are on the tape, or are cut off at its start.
      have hplace := (hforward.within hwithin).2.1
      rw [(hback.within hwithin').2.1] at hplace
      omega

/-- To go forward by an offset is not to go back by it. -/
theorem march_ne_march_reverse (h : m.OnTape) (hmax : m.tape.length < 2 ^ 63) (how : March)
    (hne : offset value ≠ 0) :
    m.march how (offset value) ≠ m.march how (reverse (offset value)) := by
  have hlt := h.bureaucrat_lt
  have hforward : m.MovesBy (unbounded m.tape.length value) (m.march how (offset value)) :=
    movesBy_march h how (seen_offset hlt hmax (le_refl _) value)
  have hback : m.MovesBy (-unbounded m.tape.length value) (m.march how (reverse (offset value))) :=
    movesBy_march h how (seen_reverse hlt hmax (le_refl _) value)
  intro heq
  rw [← heq] at hback
  exact hne ((unbounded_eq_zero_iff (by omega)).mp (hforward.eq_zero hback h))

/-- Odd numbers are yang. -/
theorem polarity_of_eq_yang_iff (v : Float) : Polarity.of v = .yang ↔ isOdd v = true := by
  rw [Polarity.of]
  cases isOdd v <;> simp

/-- `Blossom` goes forward or back by a number, by the parity of its offset. -/
theorem dispatch_blossom {generator : Generator}
    (hread : m.readAt m.delegate = (some value, { m with generator })) (hoffset : offset value ≠ 0) :
    m.dispatch .blossom = { m with generator }.march .blossomed
      (if blossomsForward value then offset value else reverse (offset value)) := by
  show m.blossom = _
  simp only [blossom, hread, if_neg hoffset, isOddOffset_offset_eq]

/-- `Blossom` goes forward by a number just when `Operate` takes the number for yang, except that an
    infinity is yang and `Blossom` goes back by it.

    The parity that `Blossom` looks at is that of the offset, as a double.  It is the parity of every
    finite number, but the offsets that stand for the infinities are even. -/
theorem only_infinities_blossom_against_their_polarity {m : Machine} {value : Float}
    (hvalue : m.operand? = some value) (hnan : decode value ≠ .nan) (hoffset : offset value ≠ 0) :
    (∃ generator, m.readAt m.delegate = (some value, { m with generator }) ∧
      let forward := { m with generator }.march .blossomed (offset value)
      let back := { m with generator }.march .blossomed (reverse (offset value))
      (m.OnTape → m.tape.length < 2 ^ 63 → forward ≠ back) ∧
      (rational? value ≠ none →
        m.dispatch .blossom = if Polarity.of value = .yang then forward else back) ∧
      (rational? value = none → Polarity.of value = .yang ∧ m.dispatch .blossom = back)) ∧
    (∀ q, rational? value = some q → (Polarity.of value = .yang ↔ Odd (away q))) ∧
    isOdd (ofWhole (decide (offset value < 0)) (offset value).natAbs) =
      isOddOffset (offset value) := by
  obtain ⟨generator, hgenerator⟩ := m.exists_generator_readAt m.delegate
  have hread : m.readAt m.delegate = (some value, { m with generator }) := Prod.ext hvalue hgenerator
  have hpolarity : ∀ q, rational? value = some q → (Polarity.of value = .yang ↔ Odd (away q)) :=
    fun q hq => (polarity_of_eq_yang_iff value).trans (isOdd_iff_odd_away hq)
  refine ⟨⟨generator, hread, fun h hmax => ?_, fun hsome => ?_, fun hnone => ?_⟩, hpolarity,
    isOdd_ofWhole_offset value⟩
  · -- Going forward and going back are different moves.
    exact march_ne_march_reverse (m := { m with generator }) ⟨h.delegate_le, h.bureaucrat_lt⟩ hmax
      .blossomed hoffset
  · -- A finite number has one parity, for `Blossom` as for `Operate`.
    obtain ⟨q, hq⟩ := Option.ne_none_iff_exists'.mp hsome
    have hforward : blossomsForward value = true ↔ Polarity.of value = .yang := by
      rw [hpolarity q hq, blossomsForward, hq]
      exact decide_eq_true_iff
    rw [dispatch_blossom hread hoffset]
    by_cases hyang : Polarity.of value = .yang
    · rw [if_pos (hforward.mpr hyang), if_pos hyang]
    · rw [if_neg (hforward.not.mpr hyang), if_neg hyang]
  · -- A number that is neither finite nor NaN is an infinity.
    have hinfinite : ∃ negative, decode value = .infinite negative := by
      cases hdecode : decode value with
      | nan => exact absurd hdecode hnan
      | infinite negative => exact ⟨negative, rfl⟩
      | finite negative mantissa exponent =>
        rw [rational?, hdecode] at hnone
        cases hnone
    obtain ⟨negative, hdecode⟩ := hinfinite
    constructor
    · rw [polarity_of_eq_yang_iff, isOdd, hdecode]
    · rw [dispatch_blossom hread hoffset, blossomsForward, hnone]
      rfl

/-- Three quarters count as one, and go forward. -/
theorem only_infinities_blossom_against_their_polarity_fraction :
    Polarity.of 0.75 = .yang ∧ ((commanding .blossom 0.75).dispatch .blossom).2.bureaucrat = 2 := by
  have hdecode : decode 0.75 = .finite false 6755399441055744 (-53) := by decide +kernel
  have hsome : rational? 0.75 ≠ none := by
    rw [rational?, hdecode]
    simp
  obtain ⟨⟨generator, -, -, hfinite, -⟩, -, -⟩ := only_infinities_blossom_against_their_polarity
    (m := commanding .blossom 0.75) rfl (by rw [hdecode]; simp) (by decide +kernel)
  have hyang : Polarity.of 0.75 = .yang := by decide +kernel
  refine ⟨hyang, ?_⟩
  rw [hfinite hsome, if_pos hyang]
  have hoffset : offset 0.75 = 1 := by decide +kernel
  rw [hoffset]
  rfl

/-- An infinity is yang, and `Blossom` does not go forward by it, but back to the start. -/
theorem infinity_blossoms_against_its_polarity :
    let infinity : Float := 1.0 / 0.0
    let m := commanding .blossom infinity
    decode infinity ≠ .nan ∧ offset infinity ≠ 0 ∧ Polarity.of infinity = .yang ∧
      (m.march .blossomed (offset infinity)).2.bureaucrat = 2 ∧
      (m.dispatch .blossom).2.bureaucrat = 0 := by
  decide +kernel

end Machine

end Verse
