import Mathlib.Data.List.Basic
import Mathlib.Data.Nat.Bitwise

/-! Byte sequences that are texts in UTF-8, and where such a text may be cut. The encoding
is the core library's; a cut leaves a text exactly in front of a character's first byte. -/
namespace Utf8

def Valid (bytes : List UInt8) : Prop := bytes.toByteArray.IsValidUTF8

instance (bytes : List UInt8) : Decidable (Valid bytes) := inferInstanceAs (Decidable bytes.toByteArray.IsValidUTF8)

/-- The text ends before `position`, or a character starts there. -/
def Boundary (bytes : List UInt8) (position : Nat) : Prop :=
  ∀ byte ∈ bytes[position]?, byte.IsUTF8FirstByte

instance (bytes : List UInt8) (position : Nat) : Decidable (Boundary bytes position) :=
  Option.decidableForallMem _

variable {bytes more : List UInt8}

theorem valid_nil : Valid [] := ByteArray.isValidUTF8_empty

theorem Valid.append (valid : Valid bytes) (moreValid : Valid more) : Valid (bytes ++ more) := by
  unfold Valid
  rw [List.toByteArray_append]
  exact ByteArray.IsValidUTF8.append valid moreValid

theorem boundary_of_length_le {position : Nat} (past : bytes.length ≤ position) : Boundary bytes position := by
  rw [Boundary,List.getElem?_eq_none past]
  simp

theorem toByteArray_take (bytes : List UInt8) (count : Nat) :
    (bytes.take count).toByteArray = bytes.toByteArray.extract 0 count := by
  apply ByteArray.ext
  rw [ByteArray.data_extract,List.data_toByteArray,List.data_toByteArray,List.extract_toArray]
  simp [List.extract_eq_take_drop]

/-- What is left of a text cut at any position is a text just if the cut splits no character. -/
theorem Valid.take_iff (valid : Valid bytes) (count : Nat) : Valid (bytes.take count) ↔ Boundary bytes count := by
  rcases Nat.lt_or_ge count bytes.length with within | past
  · -- the core library knows the valid positions of a string by its bytes
    let text : String := ⟨bytes.toByteArray,valid⟩
    have size : text.rawEndPos.byteIdx = bytes.length := List.size_toByteArray
    have inside : (⟨count⟩ : String.Pos.Raw) < text.rawEndPos := by
      rw [String.Pos.Raw.lt_iff,size]
      exact within
    have cut : String.Pos.Raw.IsValid text ⟨count⟩ ↔ Valid (bytes.take count) := by
      rw [String.Pos.Raw.isValid_iff_isValidUTF8_extract_zero,Valid,toByteArray_take]
      exact and_iff_right (Nat.le_of_lt inside)
    have first : String.Pos.Raw.IsValid text ⟨count⟩ ↔ Boundary bytes count := by
      have byte : text.getUTF8Byte ⟨count⟩ inside = bytes[count] := List.getElem_toByteArray
      rw [String.Pos.Raw.isValid_iff_isUTF8FirstByte,Boundary,List.getElem?_eq_getElem within]
      simp only [Option.mem_some_iff,forall_eq',← byte]
      refine ⟨fun valid => ?_,fun starts => .inr ⟨inside,starts⟩⟩
      rcases valid with atEnd | ⟨_,starts⟩
      · rw [atEnd] at inside
        exact (Nat.lt_irrefl _ inside).elim
      · exact starts
    exact cut.symm.trans first
  · rw [List.take_of_length_le past]
    exact iff_of_true valid (boundary_of_length_le past)

theorem ascii_firstByte {byte : UInt8} (ascii : byte < 128) : byte.IsUTF8FirstByte := by
  left
  rw [← UInt8.toNat_inj,UInt8.toNat_and]
  change byte.toNat &&& 2 ^ 7 = 0
  rw [Nat.and_two_pow,Nat.testBit_lt_two_pow (UInt8.lt_iff_toNat_lt.mp ascii)]
  rfl

theorem valid_singleton {byte : UInt8} (ascii : byte < 128) : Valid [byte] := by
  have one : (Char.ofUInt8 byte).utf8Size = 1 := by
    rw [Char.utf8Size_eq_one_iff]
    have small := UInt8.lt_iff_toNat_lt.mp ascii
    change byte.toUInt32 ≤ 127
    rw [UInt32.le_iff_toNat_le,UInt8.toNat_toUInt32]
    exact Nat.le_of_lt_succ small
  refine ⟨[Char.ofUInt8 byte],?_⟩
  rw [List.utf8Encode,List.flatMap_singleton,String.utf8EncodeChar_eq_singleton one]
  change [byte].toByteArray = [byte.toUInt32.toUInt8].toByteArray
  rw [UInt8.toUInt8_toUInt32]

theorem valid_ascii (ascii : bytes.all (· < 128) = true) : Valid bytes := by
  induction bytes with
  | nil => exact valid_nil
  | cons byte rest ih =>
    rw [List.all_cons,Bool.and_eq_true,decide_eq_true_iff] at ascii
    exact (valid_singleton ascii.1).append (ih ascii.2)

/-- A text in front of an ascii byte was a text before it. -/
theorem valid_append_iff {byte : UInt8} (ascii : byte < 128) (moreValid : Valid (byte :: more)) :
    Valid (bytes ++ byte :: more) ↔ Valid bytes := by
  constructor
  · intro whole
    have kept := (whole.take_iff bytes.length).mpr (by simp [Boundary,ascii_firstByte ascii])
    rw [List.take_left] at kept
    exact kept
  · exact fun valid => valid.append moreValid

end Utf8
