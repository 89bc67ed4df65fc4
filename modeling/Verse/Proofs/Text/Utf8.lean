import Mathlib.Data.List.DropRight
import Mathlib.Tactic.SplitIfs

/-!
# Lines of text as bytes

The byte of a line feed stands for a line feed and is part of no other character, so that a text
can be cut after its first line before it is decoded or afterwards.

* `fromUTF8?_eq_some_iff`       bytes that are the encoding of a text
* `ten_mem_utf8EncodeChar`      which characters have the byte of a line feed
* `takeWhile_utf8Bytes`, `dropWhile_utf8Bytes`   the first line of the bytes, and of the text
-/

namespace Verse

/-- The bytes of some characters. -/
def utf8Bytes (chars : List Char) : List UInt8 :=
  chars.flatMap String.utf8EncodeChar

/-- Characters are encoded one after the other. -/
theorem utf8Bytes_cons (c : Char) (chars : List Char) :
    utf8Bytes (c :: chars) = String.utf8EncodeChar c ++ utf8Bytes chars := rfl

/-- So are texts. -/
theorem utf8Bytes_append (chars chars' : List Char) :
    utf8Bytes (chars ++ chars') = utf8Bytes chars ++ utf8Bytes chars' :=
  List.flatMap_append

/-- Bytes are decoded to a text if they are its encoding. -/
theorem fromUTF8?_eq_some_iff {bytes : List UInt8} {text : String} :
    String.fromUTF8? (ByteArray.mk bytes.toArray) = some text ↔ bytes = utf8Bytes text.toList := by
  have hbytes : ByteArray.mk bytes.toArray = bytes.toByteArray :=
    ByteArray.ext List.data_toByteArray.symm
  have htext : (utf8Bytes text.toList).toByteArray = text.toByteArray := String.utf8Encode_toList
  rw [hbytes, ← List.toByteArray_inj, htext, String.fromUTF8?]
  split
  case isTrue hvalid =>
    rw [Option.some.injEq, ← String.toByteArray_inj]
    rfl
  case isFalse hinvalid =>
    refine ⟨nofun, fun h => absurd ?_ hinvalid⟩
    rw [h]
    exact text.isValidUTF8

/-! ## The byte of a line feed -/

/-- A line feed is one byte. -/
theorem utf8EncodeChar_feed : String.utf8EncodeChar '\n' = [10] := by decide

/-- Only ten is the byte of a line feed. -/
theorem ofNat_eq_ten_iff {n : Nat} (hn : n < 256) : 10 = UInt8.ofNat n ↔ n = 10 := by
  rw [← UInt8.toNat_inj, UInt8.toNat_ofNat_of_lt' hn, eq_comm]
  rfl

/-- In a character of several bytes each of them is greater than that of a line feed. -/
theorem ten_mem_utf8EncodeChar {c : Char} : 10 ∈ String.utf8EncodeChar c ↔ c = '\n' := by
  constructor
  · intro h
    have hcode : c.val.toNat = 10 := by
      -- Each byte of a longer encoding starts with a bit that a ten does not have, which is left
      -- to the arithmetic.
      unfold String.utf8EncodeChar at h
      dsimp only at h
      split_ifs at h <;>
        simp (disch := omega) only [List.mem_cons, List.not_mem_nil, or_false, ofNat_eq_ten_iff]
          at h <;> omega
    exact Char.ext (UInt32.toNat_inj.mp hcode)
  · rintro rfl
    decide

/-- A character that is no line feed has no byte of one. -/
theorem forall_utf8EncodeChar {c : Char} (h : c ≠ '\n') :
    ∀ byte ∈ String.utf8EncodeChar c, (byte != 10) = true := by
  intro byte hbyte
  rw [bne_iff_ne]
  rintro rfl
  exact h (ten_mem_utf8EncodeChar.mp hbyte)

/-- The bytes up to the first line feed are those of the characters up to it. -/
theorem takeWhile_utf8Bytes (chars : List Char) :
    (utf8Bytes chars).takeWhile (· != 10) = utf8Bytes (chars.takeWhile (· != '\n')) := by
  induction chars with
  | nil => rfl
  | cons c chars ih =>
    by_cases hc : c = '\n'
    · subst hc
      rw [utf8Bytes_cons, utf8EncodeChar_feed]
      rfl
    · rw [utf8Bytes_cons, List.takeWhile_append_of_pos (forall_utf8EncodeChar hc), ih,
        List.takeWhile_cons_of_pos (by simpa using hc), utf8Bytes_cons]

/-- And the bytes from there on are those of the other characters. -/
theorem dropWhile_utf8Bytes (chars : List Char) :
    (utf8Bytes chars).dropWhile (· != 10) = utf8Bytes (chars.dropWhile (· != '\n')) := by
  induction chars with
  | nil => rfl
  | cons c chars ih =>
    by_cases hc : c = '\n'
    · subst hc
      rw [utf8Bytes_cons, utf8EncodeChar_feed]
      rfl
    · rw [utf8Bytes_cons, List.dropWhile_append_of_pos (forall_utf8EncodeChar hc), ih,
        List.dropWhile_cons_of_pos (by simpa using hc)]

end Verse
