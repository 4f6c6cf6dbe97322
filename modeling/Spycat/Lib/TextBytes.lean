import Mathlib.Algebra.Ring.Nat
import Mathlib.Data.List.Basic

/-! The bytes of texts, and those of decimal numbers. -/

namespace Spycat.Lib

/-- The bytes of an array from a position on come behind those that were collected in reverse. -/
theorem toList_loop (bytes : ByteArray) (i : Nat) (collected : List UInt8) :
    ByteArray.toList.loop bytes i collected =
      collected.reverse ++ bytes.data.toList.drop i := by
  -- Every step takes one byte from the front of what is left.
  fun_induction ByteArray.toList.loop bytes i collected with
  | case1 i collected within ih =>
    have inside : i < bytes.data.toList.length := by simpa using within
    rw [ih, List.drop_eq_getElem_cons inside]
    simp [ByteArray.get!, within]
  | case2 i collected past =>
    have outside : bytes.data.toList.length ≤ i := by simpa using past
    rw [List.drop_of_length_le outside, List.append_nil]

/-- The bytes of a text are the listed bytes of its array. -/
theorem toUTF8_toList (text : String) : text.toUTF8.toList = text.toByteArray.data.toList := by
  -- Nothing was collected at the start.
  rw [String.toUTF8_eq_toByteArray, ByteArray.toList, toList_loop]
  rfl

/-- The bytes of two texts in a row are those of one behind those of the other. -/
theorem toUTF8_append (first second : String) :
    (first ++ second).toUTF8.toList = first.toUTF8.toList ++ second.toUTF8.toList := by
  -- The arrays are put together.
  rw [toUTF8_toList, toUTF8_toList, toUTF8_toList, String.toByteArray_append,
    ByteArray.toList_data_append]

/-- The bytes of a text of ASCII characters are the numbers of the characters. -/
theorem toUTF8_ascii (text : List Char) (ascii : ∀ c ∈ text, c.toNat < 128) :
    (String.ofList text).toUTF8.toList = text.map fun c => UInt8.ofNat c.toNat := by
  -- Every character is one byte.
  rw [toUTF8_toList, String.toByteArray_ofList]
  induction text with
  | nil => rfl
  | cons c rest ih =>
    have small : c.val ≤ 127 := by
      have below := ascii c (by simp)
      rw [UInt32.le_iff_toNat_le]
      exact Nat.le_of_lt_succ below
    have single : String.utf8EncodeChar c = [UInt8.ofNat c.toNat] := by
      rw [String.utf8EncodeChar_eq_singleton (Char.utf8Size_eq_one_iff.mpr small)]
      rfl
    rw [List.utf8Encode_cons, ByteArray.toList_data_append, List.utf8Encode_singleton, single,
      List.toList_data_toByteArray, ih fun c member => ascii c (by simp [member])]
    rfl

/-- The bytes of a decimal number are those of its digits. -/
theorem toUTF8_repr (number : Nat) :
    number.repr.toUTF8.toList = (Nat.toDigits 10 number).map fun c => UInt8.ofNat c.toNat := by
  rw [Nat.repr_eq_ofList_toDigits, toUTF8_ascii]
  intro c member
  -- The largest digit is the character 57.
  have digit := Nat.isDigit_of_mem_toDigits (by decide) (by decide) member
  exact Nat.lt_of_le_of_lt (Char.isDigit_iff_toNat.mp digit).2 (by decide)

end Spycat.Lib
