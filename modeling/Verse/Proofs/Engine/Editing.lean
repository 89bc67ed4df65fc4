import Verse.Engine
import Verse.Proofs.Machine.Cursors

/-!
# Editing the tape

Between runs, rungs can be put into the tape and taken out of it.  To say which rung is which
after many edits, every index of the tape is kept together with its origin: the index that its
rung had before the edits, if it was there.  A cursor that is on a rung stays on it wherever the
edits move it to, until the rung itself is taken out.

* `TapeEdit.getElem?_on_shift`                 a rung that an edit spares moves to another index
* `Follows.edited`                             what one edit keeps
* `edits_keep_the_cursors_on_their_rungs`      and what any number of edits keeps
-/

namespace Verse

/-- An edit of the tape. -/
inductive TapeEdit where
  /-- Put a rung before the one at an index, or at the end. -/
  | insert (rung : Rung) (index : Nat)
  /-- Take out the rung at an index. -/
  | erase (index : Nat)

namespace TapeEdit

/-- The edit of a list that has an element for every rung of the tape, given what a new rung
    has. -/
def on {α : Type} (new : Rung → α) (l : List α) : TapeEdit → List α
  | .insert rung index => l.insertIdx index (new rung)
  | .erase index => l.eraseIdx index

/-- Where the edit moves what is at an index. -/
def shift (i : Nat) : TapeEdit → Nat
  | .insert _ index => if index ≤ i then i + 1 else i
  | .erase index => if index < i then i - 1 else i

/-- Whether there is a place for the edit on a tape. -/
def Fits (length : Nat) : TapeEdit → Prop
  | .insert _ index => index ≤ length
  | .erase index => index < length

/-- Whether the edit spares the rung at an index. -/
def Spares (i : Nat) : TapeEdit → Prop
  | .insert _ _ => True
  | .erase index => i ≠ index

variable {α : Type} {new : Rung → α} {l : List α} {edit : TapeEdit} {i j : Nat}

/-- What the edit spares is found where the edit moves it to. -/
theorem getElem?_on_shift (hspares : edit.Spares i) : (edit.on new l)[edit.shift i]? = l[i]? := by
  cases edit with
  | insert rung index =>
    simp only [on, shift]
    split
    case isTrue hle => rw [List.getElem?_insertIdx_of_gt (by omega), Nat.add_sub_cancel]
    case isFalse hlt => exact List.getElem?_insertIdx_of_lt (by omega)
  | erase index =>
    have hne : i ≠ index := hspares
    simp only [on, shift]
    split
    case isTrue hlt =>
      rw [List.getElem?_eraseIdx_of_ge (by omega), Nat.sub_add_cancel (by omega)]
    case isFalse hle => exact List.getElem?_eraseIdx_of_lt (by omega)

/-- No edit brings two places out of order, though it may bring them together. -/
theorem shift_le_shift (edit : TapeEdit) (h : i ≤ j) : edit.shift i ≤ edit.shift j := by
  cases edit <;> simp only [shift] <;> split <;> split <;> omega

/-- Places that an edit spares stay apart. -/
theorem shift_lt_shift_iff (hi : edit.Spares i) (hj : edit.Spares j) :
    edit.shift i < edit.shift j ↔ i < j := by
  cases edit with
  | insert rung index =>
    simp only [shift]
    split <;> split <;> omega
  | erase index =>
    have hi : i ≠ index := hi
    have hj : j ≠ index := hj
    simp only [shift]
    split <;> split <;> omega

/-- Everything after an edit was there before, but for the rung that has been put in. -/
theorem exists_of_getElem?_on {a : α} (h : (edit.on new l)[i]? = some a)
    (hnew : ∀ rung, a ≠ new rung) : ∃ k, edit.Spares k ∧ edit.shift k = i ∧ l[k]? = some a := by
  cases edit with
  | insert rung index =>
    simp only [on] at h
    -- A rung that is found after an edit was at the same index before it, is the new one, or has
    -- been pushed up by one.
    obtain hlt | rfl | hgt := Nat.lt_trichotomy i index
    · rw [List.getElem?_insertIdx_of_lt hlt] at h
      exact ⟨i, trivial, if_neg (by omega), h⟩
    · rw [List.getElem?_insertIdx_self] at h
      split at h
      · exact absurd (Option.some.inj h).symm (hnew rung)
      · cases h
    · rw [List.getElem?_insertIdx_of_gt hgt] at h
      refine ⟨i - 1, trivial, ?_, h⟩
      rw [shift, if_pos (by omega)]
      omega
  | erase index =>
    simp only [on] at h
    -- Behind the rung that is taken out, all have moved down by one.
    by_cases hlt : i < index
    · rw [List.getElem?_eraseIdx_of_lt hlt] at h
      exact ⟨i, Nat.ne_of_lt hlt, if_neg (by omega), h⟩
    · rw [List.getElem?_eraseIdx_of_ge (by omega)] at h
      refine ⟨i + 1, show i + 1 ≠ index by omega, ?_, h⟩
      rw [shift, if_pos (by omega)]
      omega

/-- The end of the tape moves with the edit. -/
theorem length_on (hfits : edit.Fits l.length) : (edit.on new l).length = edit.shift l.length := by
  cases edit with
  | insert rung index =>
    have hle : index ≤ l.length := hfits
    rw [on, shift, List.length_insertIdx_of_le_length hle, if_pos hle]
  | erase index =>
    have hlt : index < l.length := hfits
    rw [on, shift, List.length_eraseIdx_of_lt hlt, if_pos hlt]

end TapeEdit

/-! ## Origins -/

/-- The origins of the rungs of a tape after some edits: the index of each rung before them, and
    none for a rung that they have put in. -/
def origins (length : Nat) (edits : List TapeEdit) : List (Option Nat) :=
  edits.foldl (fun origins edit => edit.on (fun _ => none) origins) ((List.range length).map some)

/-- One edit more is made of the origins as it is made of the tape. -/
theorem origins_concat (length : Nat) (edits : List TapeEdit) (edit : TapeEdit) :
    origins length (edits ++ [edit]) = edit.on (fun _ => none) (origins length edits) := by
  rw [origins, List.foldl_append, origins]
  rfl

/-- Without edits, every rung is where it comes from. -/
theorem getElem?_origins_nil (length i : Nat) :
    (origins length [])[i]? = if i < length then some (some i) else none := by
  rw [origins, List.foldl_nil, List.getElem?_map]
  split
  case isTrue hlt => rw [List.getElem?_range hlt, Option.map_some]
  case isFalse hge => rw [List.getElem?_eq_none (by simpa using hge), Option.map_none]

/-- The rungs of a tape are those of an earlier one, in the same order, but for the rungs that
    have been put in and taken out since. -/
structure Originates (earlier later : List Rung) (origins : List (Option Nat)) : Prop where
  length_eq : origins.length = later.length
  rung : ∀ i k : Nat, origins[i]? = some (some k) → later[i]? = earlier[k]?
  ascending : ∀ i j k l : Nat, origins[i]? = some (some k) → origins[j]? = some (some l) →
    (i < j ↔ k < l)

/-- A cursor that was on a rung is still on it, unless the rung has been taken out, and one that
    was at the end of the tape is still there. -/
structure Stays (length : Nat) (origins : List (Option Nat)) (cursor cursor' : Nat) : Prop where
  onRung : some cursor ∈ origins → origins[cursor']? = some (some cursor)
  atEnd : cursor = length → cursor' = origins.length

section

variable {tape tape' : List Rung} {origins : List (Option Nat)} {edit : TapeEdit}

/-- An edit of the tape, made of the origins too, keeps the rungs that it spares in their order.
    -/
theorem Originates.on_edit (h : Originates tape tape' origins) (hfits : edit.Fits tape'.length) :
    Originates tape (edit.on id tape') (edit.on (fun _ => none) origins) where
  length_eq := by
    rw [TapeEdit.length_on hfits, TapeEdit.length_on (h.length_eq ▸ hfits), h.length_eq]
  rung i k hi := by
    -- Only a rung that the edit has spared has an origin, as a new one has none.
    obtain ⟨i, hspares, rfl, hk⟩ := TapeEdit.exists_of_getElem?_on hi (by simp)
    rw [TapeEdit.getElem?_on_shift hspares]
    exact h.rung i k hk
  ascending i j k l hi hj := by
    obtain ⟨i, hspares, rfl, hk⟩ := TapeEdit.exists_of_getElem?_on hi (by simp)
    obtain ⟨j, hspares', rfl, hl⟩ := TapeEdit.exists_of_getElem?_on hj (by simp)
    rw [TapeEdit.shift_lt_shift_iff hspares hspares']
    exact h.ascending i j k l hk hl

/-- No two rungs have one origin. -/
theorem Originates.unique (h : Originates tape tape' origins) {i j k : Nat}
    (hi : origins[i]? = some (some k)) (hj : origins[j]? = some (some k)) : i = j := by
  have hlt := h.ascending i j k k hi hj
  have hgt := h.ascending j i k k hj hi
  omega

/-- An edit moves a cursor along with its rung, or with the end of the tape. -/
theorem Stays.on_edit {cursor cursor' : Nat} (h : Stays tape.length origins cursor cursor')
    (horigins : Originates tape tape' origins) (hfits : edit.Fits tape'.length) :
    Stays tape.length (edit.on (fun _ => none) origins) cursor (edit.shift cursor') where
  onRung hmem := by
    obtain ⟨i, hi⟩ := List.getElem?_of_mem hmem
    obtain ⟨k, hspares, -, hk⟩ := TapeEdit.exists_of_getElem?_on hi (by simp)
    -- The rung that the edit has spared is the one under the cursor.
    have hcursor := h.onRung (List.mem_of_getElem? hk)
    obtain rfl := horigins.unique hk hcursor
    rw [TapeEdit.getElem?_on_shift hspares]
    exact hk
  atEnd heq := by
    rw [TapeEdit.length_on (horigins.length_eq ▸ hfits), h.atEnd heq]

end

/-! ## Edits of an engine -/

namespace Engine

/-- Make an edit, if there is a place for it. -/
def edit? (e : Engine) : TapeEdit → Option Engine
  | .insert rung index => e.insert? rung index
  | .erase index => (e.erase? index).map Prod.snd

/-- Make an edit.  Nothing is changed if it is refused. -/
def edited (e : Engine) (edit : TapeEdit) : Engine :=
  (e.edit? edit).getD e

/-- Make edits one after another. -/
def editedBy (e : Engine) (edits : List TapeEdit) : Engine :=
  edits.foldl edited e

/-- One edit more is made at the end. -/
theorem editedBy_concat (e : Engine) (edits : List TapeEdit) (edit : TapeEdit) :
    e.editedBy (edits ++ [edit]) = (e.editedBy edits).edited edit := by
  rw [editedBy, List.foldl_append, editedBy]
  rfl

/-- The engine after an edit that there is a place for: both cursors are moved as the rungs
    under them are. -/
def displaced (e : Engine) (edit : TapeEdit) : Engine :=
  { e with
    machine := { e.machine with
      tape := edit.on id e.machine.tape
      bureaucrat := edit.shift e.machine.bureaucrat
      delegate := edit.shift e.machine.delegate } }

/-- An edit that there is a place for is made. -/
theorem edit?_of_fits {e : Engine} {edit : TapeEdit} (h : edit.Fits e.machine.tape.length) :
    e.edit? edit = some (e.displaced edit) := by
  cases edit with
  | insert rung index =>
    have hle : index ≤ e.machine.tape.length := h
    rw [edit?, insert?, Machine.insert?, if_pos hle]
    rfl
  | erase index =>
    have hrung := List.getElem?_eq_getElem h
    rw [edit?, erase?, Machine.erase?, hrung]
    rfl

/-- Any other edit is refused. -/
theorem edit?_eq_none_iff {e : Engine} {edit : TapeEdit} :
    e.edit? edit = none ↔ ¬ edit.Fits e.machine.tape.length := by
  constructor
  · intro hnone hfits
    rw [edit?_of_fits hfits] at hnone
    cases hnone
  · intro h
    cases edit with
    | insert rung index =>
      have hgt : ¬ index ≤ e.machine.tape.length := h
      rw [edit?, insert?, Machine.insert?, if_neg hgt]
      rfl
    | erase index =>
      have hrung := List.getElem?_eq_none_iff.mpr (Nat.not_lt.mp h)
      rw [edit?, erase?, Machine.erase?, hrung]
      rfl

/-- An edit leads to the engine with everything moved, and only if there is a place for it. -/
theorem edit?_eq_some_iff {e e' : Engine} {edit : TapeEdit} :
    e.edit? edit = some e' ↔ edit.Fits e.machine.tape.length ∧ e' = e.displaced edit := by
  by_cases hfits : edit.Fits e.machine.tape.length
  · rw [edit?_of_fits hfits, Option.some.injEq]
    exact ⟨fun h => ⟨hfits, h.symm⟩, fun h => h.2.symm⟩
  · rw [edit?_eq_none_iff.mpr hfits]
    exact ⟨fun h => absurd h (by simp), fun h => absurd h.1 hfits⟩

/-- The edits keep the cursors in order as they keep everything in order. -/
theorem inOrder_displaced {e : Engine} {edit : TapeEdit} (h : e.machine.InOrder)
    (hfits : edit.Fits e.machine.tape.length) : (e.displaced edit).machine.InOrder := by
  constructor
  · exact edit.shift_le_shift h.delegate_le
  · show edit.shift e.machine.bureaucrat ≤ (edit.on id e.machine.tape).length
    rw [TapeEdit.length_on hfits]
    exact edit.shift_le_shift h.bureaucrat_le

/-- What edits keep, from an engine to another one. -/
structure Follows (e e' : Engine) (origins : List (Option Nat)) : Prop where
  inOrder : e'.machine.InOrder
  originates : Originates e.machine.tape e'.machine.tape origins
  bureaucrat : Stays e.machine.tape.length origins e.machine.bureaucrat e'.machine.bureaucrat
  delegate : Stays e.machine.tape.length origins e.machine.delegate e'.machine.delegate

/-- Before any edit, every rung is where it comes from. -/
theorem Follows.refl {e : Engine} (h : e.machine.InOrder) :
    Follows e e (origins e.machine.tape.length []) := by
  have hlength : (origins e.machine.tape.length []).length = e.machine.tape.length := by
    simp [origins]
  have horigin : ∀ i k : Nat, (origins e.machine.tape.length [])[i]? = some (some k) → i = k := by
    intro i k hi
    rw [getElem?_origins_nil] at hi
    split at hi
    · exact Option.some.inj (Option.some.inj hi)
    · cases hi
  have hstays : ∀ cursor, Stays e.machine.tape.length (origins e.machine.tape.length []) cursor
      cursor := by
    refine fun cursor => ⟨fun hmem => ?_, fun heq => heq.trans hlength.symm⟩
    obtain ⟨i, hi⟩ := List.getElem?_of_mem hmem
    rwa [horigin i cursor hi] at hi
  refine ⟨h, ⟨hlength, fun i k hi => ?_, fun i j k l hi hj => ?_⟩, hstays _, hstays _⟩
  · rw [horigin i k hi]
  · rw [horigin i k hi, horigin j l hj]

/-- One more edit. -/
theorem Follows.edited {e e' : Engine} {edits : List TapeEdit}
    (h : Follows e e' (origins e.machine.tape.length edits)) (edit : TapeEdit) :
    Follows e (e'.edited edit) (origins e.machine.tape.length (edits ++ [edit])) := by
  rw [origins_concat, Engine.edited]
  by_cases hfits : edit.Fits e'.machine.tape.length
  · rw [edit?_of_fits hfits, Option.getD_some]
    exact ⟨inOrder_displaced h.inOrder hfits, h.originates.on_edit hfits,
      h.bureaucrat.on_edit h.originates hfits, h.delegate.on_edit h.originates hfits⟩
  · -- Where there is no place on the tape, there is none among the origins either.
    have hsame : edit.on (fun _ => none) (origins e.machine.tape.length edits) =
        origins e.machine.tape.length edits := by
      rw [← h.originates.length_eq] at hfits
      cases edit with
      | insert rung index => exact List.insertIdx_of_length_lt (Nat.not_le.mp hfits)
      | erase index => exact List.eraseIdx_of_length_le (Nat.not_lt.mp hfits)
    rw [edit?_eq_none_iff.mpr hfits, Option.getD_none, hsame]
    exact h

/-- Any number of edits, one after another. -/
theorem follows_editedBy {e : Engine} (h : e.machine.InOrder) (edits : List TapeEdit) :
    Follows e (e.editedBy edits) (origins e.machine.tape.length edits) := by
  induction edits using List.reverseRecOn with
  | nil => exact .refl h
  | append_singleton edits edit ih =>
    rw [editedBy_concat]
    exact ih.edited edit

/-- Whatever edits are made of a tape with its cursors in order, the cursors stay in order, and
    the rungs that are neither put in nor taken out stay in order too.  Each cursor stays on its
    rung until that is taken out, or at the end of the tape if it was there.  If the rung under a
    cursor is taken out, the cursor stays where it is, which is where the rung behind it comes
    to, or the end of the tape.  An edit is refused if and only if there is no place for it, and
    then nothing is changed.

    As the order is kept, all of this holds from the engine after any of the edits on, so that a
    rung that has been put in keeps a cursor that comes to it just as well. -/
theorem edits_keep_the_cursors_on_their_rungs {e : Engine} (h : e.machine.InOrder)
    (edits : List TapeEdit) :
    Follows e (e.editedBy edits) (origins e.machine.tape.length edits) ∧
    (∀ cursor, cursor = (e.editedBy edits).machine.bureaucrat ∨
        cursor = (e.editedBy edits).machine.delegate →
      let left := (e.editedBy edits).edited (.erase cursor)
      (cursor = (e.editedBy edits).machine.bureaucrat → left.machine.bureaucrat = cursor) ∧
      (cursor = (e.editedBy edits).machine.delegate → left.machine.delegate = cursor) ∧
      left.machine.tape[cursor]? = (e.editedBy edits).machine.tape[cursor + 1]? ∧
      (origins e.machine.tape.length (edits ++ [.erase cursor]))[cursor]? =
        (origins e.machine.tape.length edits)[cursor + 1]?) ∧
    ∀ edit, ((e.editedBy edits).edit? edit = none ↔
        ¬ edit.Fits (e.editedBy edits).machine.tape.length) ∧
      (¬ edit.Fits (e.editedBy edits).machine.tape.length →
        (e.editedBy edits).edited edit = e.editedBy edits) := by
  refine ⟨follows_editedBy h edits, fun cursor _ => ?_, fun edit => ⟨edit?_eq_none_iff, ?_⟩⟩
  · -- The origins lose what is at the cursor, as the tape does.
    generalize e.editedBy edits = e'
    have horigins : (origins e.machine.tape.length (edits ++ [.erase cursor]))[cursor]? =
        (origins e.machine.tape.length edits)[cursor + 1]? := by
      rw [origins_concat, TapeEdit.on]
      exact List.getElem?_eraseIdx_of_ge (Nat.le_refl cursor)
    by_cases hlt : cursor < e'.machine.tape.length
    · have hedit : e'.edit? (.erase cursor) = some (e'.displaced (.erase cursor)) :=
        edit?_of_fits hlt
      have hshift : (TapeEdit.erase cursor).shift cursor = cursor := if_neg (Nat.lt_irrefl cursor)
      simp only [edited, hedit, Option.getD_some, displaced]
      refine ⟨fun heq => ?_, fun heq => ?_, ?_, horigins⟩
      · rw [← heq, hshift]
      · rw [← heq, hshift]
      · exact List.getElem?_eraseIdx_of_ge (Nat.le_refl cursor)
    · -- There is no rung under the cursor, and none behind it.
      have hnone : e'.edit? (.erase cursor) = none := edit?_eq_none_iff.mpr hlt
      simp only [edited, hnone, Option.getD_none]
      refine ⟨fun heq => heq.symm, fun heq => heq.symm, ?_, horigins⟩
      rw [List.getElem?_eq_none (by omega), List.getElem?_eq_none (by omega)]
  · intro hfits
    rw [edited, edit?_eq_none_iff.mpr hfits, Option.getD_none]

/-- Three rungs, with the bureaucrat on the last and the delegate on the one before it. -/
def climbing : Engine :=
  let rung (name : String) : Rung :=
    { position := .input 0, name, element := .earth, cell := .literal 1.0 }
  { machine :=
      { tape := [rung "one", rung "two", rung "three"], bureaucrat := 2, delegate := 1
        generator := .ofSeed 0 } }

/-- A rung is put in before the delegate, and the first one is taken out.  A rung beyond the end
    is refused. -/
theorem edits_keep_the_cursors_on_their_rungs_climbing :
    ∃ rung, climbing.machine.InOrder ∧
      origins 3 [.insert rung 1, .erase 0, .erase 3] = [none, some 1, some 2] ∧
      (climbing.editedBy [.insert rung 1, .erase 0, .erase 3]).machine.bureaucrat = 2 ∧
      (climbing.editedBy [.insert rung 1, .erase 0, .erase 3]).machine.delegate = 1 ∧
      (climbing.editedBy [.insert rung 1, .erase 0, .erase 3]).machine.InOrder ∧
      (origins 3 [.insert rung 1, .erase 0, .erase 3])[
        (climbing.editedBy [.insert rung 1, .erase 0, .erase 3]).machine.delegate]? =
          some (some 1) := by
  have horder : climbing.machine.InOrder := ⟨by decide, by decide⟩
  let new : Rung := { position := .input 9, name := "new", element := .wood, cell := .punctuation }
  obtain ⟨hfollows, -⟩ := edits_keep_the_cursors_on_their_rungs horder
    [.insert new 1, .erase 0, .erase 3]
  refine ⟨new, horder, rfl, rfl, rfl, hfollows.inOrder, hfollows.delegate.onRung ?_⟩
  decide

end Engine

end Verse
