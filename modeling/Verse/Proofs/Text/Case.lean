import Verse.Text.Case
import Verse.Text.Split

/-!
# Lower case is settled

Lower-casing a text a second time changes nothing: no letter that a capital is lowered to is a
capital itself.  Nor does lower-casing make up white space, or the marks that stand for a base
word in a dictionary.

* `not_mem_capitals`        the capitals of the table and their small letters are disjoint
* `lowerAfter_cons`         what becomes of one character
* `lower_lower`             lower-casing is idempotent
* `eq_singleton_of_lower`   only a mark is lowered to a mark
-/

namespace Verse.Text

/-! ## Sets of code points -/

/-- A set of code points, as the number with these bits. -/
def mask (codes : List Nat) : Nat :=
  codes.foldr (fun n set => 1 <<< n ||| set) 0

/-- The bits of a set are its members. -/
theorem testBit_mask (codes : List Nat) (n : Nat) :
    (mask codes).testBit n = decide (n ∈ codes) := by
  induction codes with
  | nil => simp [mask]
  | cons m codes ih =>
    rw [mask, List.foldr_cons, ← mask, Nat.testBit_or, ih, Nat.one_shiftLeft,
      Nat.testBit_two_pow]
    simp [eq_comm]

/-- Sets whose numbers have no bit in common are disjoint. -/
theorem not_mem_of_mask {codes others : List Nat} (h : mask codes &&& mask others = 0) {n : Nat}
    (hn : n ∈ codes) : n ∉ others := by
  have hbit : (mask codes &&& mask others).testBit n = false := by rw [h, Nat.zero_testBit]
  simpa [Nat.testBit_and, testBit_mask, hn] using hbit

/-! ## The table of letters -/

namespace CaseRange

/-- The code points of the capital letters of a range. -/
def capitals (range : CaseRange) : List Nat :=
  (List.range ((range.last - range.first) / range.step + 1)).map
    fun k => range.first + range.step * k

/-- The code points of their small letters. -/
def smalls (range : CaseRange) : List Nat :=
  range.capitals.map fun n : Nat => (n + range.shift : Int).toNat

/-- In a range every so many code points there is a capital. -/
theorem mem_capitals {range : CaseRange} {n : Nat} (hfirst : range.first ≤ n)
    (hlast : n ≤ range.last) (hstep : (n - range.first) % range.step = 0) :
    n ∈ range.capitals := by
  refine List.mem_map.mpr ⟨(n - range.first) / range.step, List.mem_range.mpr ?_, ?_⟩
  · exact Nat.lt_succ_of_le (Nat.div_le_div_right (by omega))
  · rw [Nat.mul_div_cancel' (Nat.dvd_of_mod_eq_zero hstep)]
    omega

end CaseRange

/-- The code points of all capital letters of the table. -/
def capitals : List Nat :=
  caseRanges.flatMap CaseRange.capitals

/-- The code points of all their small letters. -/
def smalls : List Nat :=
  caseRanges.flatMap CaseRange.smalls

/-- A character is its own small letter unless it is a capital. -/
theorem shiftCase_cases (ranges : List CaseRange) (c : Char) :
    shiftCase ranges c = c ∨
      c.toNat ∈ ranges.flatMap CaseRange.capitals ∧
        ∃ n ∈ ranges.flatMap CaseRange.smalls, shiftCase ranges c = Char.ofNat n := by
  induction ranges with
  | nil => exact .inl rfl
  | cons range rest ih =>
    simp only [List.flatMap_cons, List.mem_append]
    rw [shiftCase]
    split
    case isTrue => exact .inl rfl
    case isFalse hfirst =>
      -- Within the range, every `step`-th character is a capital; behind it, look further.
      split
      case isTrue hlast =>
        split
        case isTrue hstep =>
          have hmem := CaseRange.mem_capitals (by omega) hlast hstep
          exact .inr ⟨.inl hmem, _, .inl (List.mem_map_of_mem hmem), rfl⟩
        case isFalse => exact .inl rfl
      case isFalse =>
        obtain hself | ⟨hmem, n, hn, hshift⟩ := ih
        · exact .inl hself
        · exact .inr ⟨.inr hmem, n, .inr hn, hshift⟩

/-- No small letter is a capital, too. -/
theorem not_mem_capitals {n : Nat} (h : n ∈ smalls) : n ∉ capitals :=
  not_mem_of_mask (by decide +kernel) h

/-! ## Characters that stay -/

/-- A character that lower-casing leaves as it is, wherever it stands. -/
structure IsSettled (c : Char) : Prop where
  ne_sigma : c ≠ 'Σ'
  ne_dotted : c ≠ 'İ'
  shiftCase_eq : shiftCase caseRanges c = c

/-- Whether a character alone stands for a base word in a dictionary. -/
def isMark (c : Char) : Bool :=
  c == '_' || c == '.'

/-- A character that a capital may be lowered to. -/
structure IsSmall (c : Char) : Prop extends IsSettled c where
  not_isWhite : isWhite c = false
  not_isMark : isMark c = false

/-- The lower-case letters that the table does not account for. -/
theorem IsSmall.of_eq {c : Char} (h : c = 'ς' ∨ c = 'σ' ∨ c = 'i' ∨ c = '\u0307') : IsSmall c := by
  obtain rfl | rfl | rfl | rfl := h <;>
    exact ⟨⟨by decide, by decide, by decide +kernel⟩, by decide, by decide⟩

/-- The small letters of the table are not lowered any further. -/
theorem IsSmall.ofNat {n : Nat} (h : n ∈ smalls) : IsSmall (Char.ofNat n) := by
  -- The table is finite, and so each of its letters can be looked at.
  have hchars : ∀ n ∈ smalls, (Char.ofNat n).toNat = n ∧ Char.ofNat n ≠ 'Σ' ∧ Char.ofNat n ≠ 'İ' ∧
      isWhite (Char.ofNat n) = false ∧ isMark (Char.ofNat n) = false := by
    decide +kernel
  obtain ⟨hvalid, hsigma, hdotted, hwhite, hmark⟩ := hchars n h
  refine ⟨⟨hsigma, hdotted, ?_⟩, hwhite, hmark⟩
  -- If it were lowered again, it would be a capital of the table.
  obtain hself | ⟨hmem, -⟩ := shiftCase_cases caseRanges (Char.ofNat n)
  · exact hself
  · rw [hvalid] at hmem
    exact absurd hmem (not_mem_capitals h)

/-! ## Texts -/

/-- A character stays as it is, if it is settled, or small letters take its place. -/
theorem lowerAfter_cons (before : List Char) (c : Char) (rest : List Char) :
    ∃ lowered, lowered ≠ [] ∧
      (∀ d ∈ lowered, IsSettled d ∧ (d = c ∨ IsSmall d)) ∧
      lowerAfter before (c :: rest) = lowered ++ lowerAfter (c :: before) rest := by
  have small {d : Char} (h : IsSmall d) : IsSettled d ∧ (d = c ∨ IsSmall d) :=
    ⟨h.toIsSettled, .inr h⟩
  rw [lowerAfter]
  -- Two characters have a rule of their own; the table has the others.
  by_cases hsigma : c = 'Σ'
  · rw [if_pos hsigma]
    split
    · exact ⟨['ς'], by simp, by simpa using small (.of_eq (by simp)), rfl⟩
    · exact ⟨['σ'], by simp, by simpa using small (.of_eq (by simp)), rfl⟩
  rw [if_neg hsigma, lowerChar]
  by_cases hdotted : c = 'İ'
  · rw [if_pos hdotted]
    refine ⟨['i', '\u0307'], by simp, ?_, rfl⟩
    intro d hd
    obtain rfl | rfl : d = 'i' ∨ d = '\u0307' := by simpa using hd
    · exact small (.of_eq (by simp))
    · exact small (.of_eq (by simp))
  rw [if_neg hdotted]
  refine ⟨[shiftCase caseRanges c], by simp, ?_, rfl⟩
  intro d hd
  obtain rfl := List.mem_singleton.mp hd
  obtain hself | ⟨-, n, hn, hshift⟩ := shiftCase_cases caseRanges c
  · rw [hself]
    exact ⟨⟨hsigma, hdotted, hself⟩, .inl rfl⟩
  · rw [hshift]
    exact small (.ofNat hn)

/-- What a text is lowered to is settled, and is in the text or a small letter. -/
theorem mem_lowerAfter {before cs : List Char} {d : Char} (h : d ∈ lowerAfter before cs) :
    IsSettled d ∧ (d ∈ cs ∨ IsSmall d) := by
  induction cs generalizing before with
  | nil => cases h
  | cons c cs ih =>
    obtain ⟨lowered, -, hlowered, hcons⟩ := lowerAfter_cons before c cs
    rw [hcons, List.mem_append] at h
    obtain hmem | hmem := h
    · obtain ⟨hsettled, rfl | hsmall⟩ := hlowered d hmem
      · exact ⟨hsettled, .inl List.mem_cons_self⟩
      · exact ⟨hsettled, .inr hsmall⟩
    · exact (ih hmem).imp_right (Or.imp_left (List.mem_cons_of_mem c))

/-- Settled characters stay. -/
theorem lowerAfter_of_isSettled {cs : List Char} (h : ∀ c ∈ cs, IsSettled c)
    (before : List Char) : lowerAfter before cs = cs := by
  induction cs generalizing before with
  | nil => rfl
  | cons c cs ih =>
    obtain ⟨hc, hcs⟩ := List.forall_mem_cons.mp h
    rw [lowerAfter, if_neg hc.ne_sigma, lowerChar, if_neg hc.ne_dotted, hc.shiftCase_eq, ih hcs,
      List.singleton_append]

/-- Nothing is lost or made up: only the empty text is lowered to the empty text. -/
theorem lowerAfter_eq_nil_iff {before cs : List Char} : lowerAfter before cs = [] ↔ cs = [] := by
  cases cs with
  | nil => simp [lowerAfter]
  | cons c cs =>
    obtain ⟨lowered, hne, -, hcons⟩ := lowerAfter_cons before c cs
    simp [hcons, hne]

/-- Lower-casing is idempotent. -/
theorem lower_lower (text : String) : lower (lower text) = lower text := by
  rw [lower, lowerAfter_of_isSettled, String.ofList_toList]
  intro c hc
  rw [lower, String.toList_ofList] at hc
  exact (mem_lowerAfter hc).1

/-- A text that is not empty has something left in lower case. -/
theorem lower_ne_empty {text : String} (h : text ≠ "") : lower text ≠ "" := by
  simpa [lower, lowerAfter_eq_nil_iff] using h

/-- Lower-casing makes up no white space. -/
theorem not_isWhite_lower {text : String} (h : ∀ c ∈ text.toList, isWhite c = false) :
    ∀ c ∈ (lower text).toList, isWhite c = false := by
  intro c hc
  rw [lower, String.toList_ofList] at hc
  obtain hmem | hsmall := (mem_lowerAfter hc).2
  · exact h c hmem
  · exact hsmall.not_isWhite

/-- Only a mark is lowered to a mark. -/
theorem eq_singleton_of_lower {text : String} {mark : Char} (hmark : isMark mark = true)
    (h : lower text = String.singleton mark) : text = String.singleton mark := by
  rw [lower, String.singleton_eq_ofList, String.ofList_inj] at h
  rw [← String.toList_inj, String.toList_singleton]
  -- The mark comes from the first character, and there cannot be another one.
  cases hcs : text.toList with
  | nil => simp [hcs, lowerAfter] at h
  | cons c cs =>
    obtain ⟨lowered, hne, hlowered, hcons⟩ := lowerAfter_cons [] c cs
    rw [hcs, hcons, List.append_eq_singleton_iff] at h
    obtain ⟨hnil, -⟩ | ⟨rfl, hrest⟩ := h
    · exact absurd hnil hne
    · rw [lowerAfter_eq_nil_iff.mp hrest]
      obtain ⟨-, rfl | hsmall⟩ := hlowered mark (List.mem_singleton_self mark)
      · rfl
      · simp [hsmall.not_isMark] at hmark

end Verse.Text
