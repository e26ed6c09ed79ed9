import Mathlib.Data.Nat.Bitwise
import Wisp.DedupWindow
import Wisp.LittleEndian

/-! The ids a broker stamps on messages: two random words with the version and variant
of a random uuid written into them, laid out highest byte first. Dedup reads the same
bytes lowest first, and still tells any two of them apart. -/
namespace Wisp

open Transition LittleEndian

/-- The bytes of a word in memory, of a host that keeps the lowest first as `loadWord` does. -/
def storeWord (word : UInt64) : Str := bytesOf 8 word.toNat

def htobe64 (word : UInt64) : UInt64 := loadWord (storeWord word).reverse

/-- The id made of two draws. -/
def generateBinaryUUID (first second : UInt64) : Str :=
  let hi := (first &&& 0xffffffffffff0fff) ||| 0x0000000000004000
  let lo := (second &&& 0x3fffffffffffffff) ||| 0x8000000000000000
  storeWord (htobe64 hi) ++ storeWord (htobe64 lo)

/-- 16 bytes with version 4 in the upper half of byte 6 and variant 10 on top of byte 8. -/
structure Stamped (uuid : Str) : Prop where
  length : uuid.length = 16
  version : ∃ byte : UInt8, uuid[6]? = some byte ∧ byte >>> 4 = 4
  variant : ∃ byte : UInt8, uuid[8]? = some byte ∧ byte >>> 6 = 2

theorem loadWord_toNat (bytes : Str) (fits : bytes.length ≤ 8) : (loadWord bytes).toNat = valueOf bytes := by
  induction bytes with
  | nil => rfl
  | cons byte rest ih =>
    rw [List.length_cons] at fits
    have small := byte.toNat_lt
    have below : valueOf rest < 256 ^ 7 :=
      Nat.lt_of_lt_of_le (valueOf_lt rest) (Nat.pow_le_pow_right (by decide) (by omega))
    have tail := ih (by omega)
    change (loadWord rest * 256 + byte.toUInt64).toNat = _
    rw [UInt64.toNat_add,UInt64.toNat_mul,tail,UInt8.toNat_toUInt64,valueOf]
    change (valueOf rest * 256 % 2 ^ 64 + byte.toNat) % 2 ^ 64 = _
    omega

theorem storeWord_loadWord (bytes : Str) (eight : bytes.length = 8) : storeWord (loadWord bytes) = bytes := by
  rw [storeWord,loadWord_toNat bytes (Nat.le_of_eq eight),← eight,bytesOf_valueOf]

theorem storeWord_length (word : UInt64) : (storeWord word).length = 8 := bytesOf_length 8 _

theorem storeWord_htobe64 (word : UInt64) : storeWord (htobe64 word) = (storeWord word).reverse := by
  apply storeWord_loadWord
  rw [List.length_reverse,storeWord_length]

/-- Where the mask clears a field, the stamp alone decides it. -/
theorem stamp_field (draw mask stamp shift width : Nat) (cleared : mask >>> shift &&& (2 ^ width - 1) = 0) :
    (draw &&& mask ||| stamp) / 2 ^ shift % 2 ^ width = stamp / 2 ^ shift % 2 ^ width := by
  rw [← Nat.shiftRight_eq_div_pow,← Nat.shiftRight_eq_div_pow,← Nat.and_two_pow_sub_one_eq_mod,
    ← Nat.and_two_pow_sub_one_eq_mod,Nat.shiftRight_or_distrib,Nat.shiftRight_and_distrib,
    Nat.and_or_distrib_right,Nat.and_assoc,cleared,Nat.and_zero,Nat.zero_or]

/-- The upper bits of one byte of a word. -/
theorem byte_shiftRight (value shift : Nat) (within : shift < 8) :
    (UInt8.ofNat (value % 256) >>> UInt8.ofNat shift).toNat = value % 256 / 2 ^ shift := by
  rw [UInt8.toNat_shiftRight,UInt8.toNat_ofNat',UInt8.toNat_ofNat',Nat.shiftRight_eq_div_pow]
  congr 1
  · omega
  · congr 1
    omega

theorem generateBinaryUUID_stamped (first second : UInt64) : Stamped (generateBinaryUUID first second) := by
  have version := stamp_field first.toNat 0xffffffffffff0fff 0x4000 12 4 (by decide)
  have variant := stamp_field second.toNat 0x3fffffffffffffff 0x8000000000000000 62 2 (by decide)
  unfold generateBinaryUUID
  dsimp only
  rw [storeWord_htobe64,storeWord_htobe64]
  refine ⟨by simp [storeWord_length],⟨_,rfl,?_⟩,⟨_,rfl,?_⟩⟩
  · apply UInt8.toNat_inj.mp
    refine (byte_shiftRight _ 4 (by decide)).trans ?_
    rw [UInt64.toNat_or,UInt64.toNat_and]
    change (first.toNat &&& 0xffffffffffff0fff ||| 0x4000) / 256 % 256 / 2 ^ 4 = 4
    omega
  · apply UInt8.toNat_inj.mp
    refine (byte_shiftRight _ 6 (by decide)).trans ?_
    rw [UInt64.toNat_or,UInt64.toNat_and]
    change (second.toNat &&& 0x3fffffffffffffff ||| 0x8000000000000000) / 256 / 256 / 256 / 256 / 256 / 256 / 256 %
      256 / 2 ^ 6 = 2
    omega

section Apart

variable {uuid other : Str}

theorem messageIdFrom_inj (sixteen : uuid.length = 16) (otherSixteen : other.length = 16)
    (same : messageIdFrom uuid = messageIdFrom other) : uuid = other := by
  simp only [messageIdFrom,sixteen,otherSixteen,if_true,MessageId.mk.injEq] at same
  obtain ⟨front,back⟩ := same
  have take := congrArg storeWord front
  have drop := congrArg storeWord back
  rw [storeWord_loadWord _ (by simp [sixteen]),storeWord_loadWord _ (by simp [otherSixteen])] at take drop
  rw [← List.take_append_drop 8 uuid,take,drop,List.take_append_drop]

/-- The version keeps the upper word of a stamped id from being zero. -/
theorem Stamped.hi_ne_zero (stamped : Stamped uuid) : (messageIdFrom uuid).hi ≠ 0 := by
  intro zero
  rw [messageIdFrom,if_pos stamped.length] at zero
  have bytes := congrArg storeWord zero
  rw [storeWord_loadWord _ (by simp [stamped.length])] at bytes
  obtain ⟨byte,at6,version⟩ := stamped.version
  have sixth : (uuid.take 8)[6]? = some byte := by rw [List.getElem?_take_of_lt (by decide),at6]
  rw [bytes] at sixth
  obtain rfl : 0 = byte := Option.some.inj sixth
  exact absurd version (by decide)

theorem Stamped.dedupId_eq (stamped : Stamped uuid) : dedupId uuid = messageIdFrom uuid :=
  if_neg fun zero => stamped.hi_ne_zero zero.1

/-- No other id of 16 bytes, stamped or not, is reduced to that of a stamped one. -/
theorem Stamped.apart (stamped : Stamped uuid) (sixteen : other.length = 16) (different : uuid ≠ other) :
    dedupId uuid ≠ dedupId other := by
  intro same
  rw [stamped.dedupId_eq,dedupId] at same
  split at same
  next zero =>
    apply stamped.hi_ne_zero
    rw [same]
    exact zero.1
  next => exact different (messageIdFrom_inj stamped.length sixteen same)

end Apart

namespace MessageHistory

theorem check_ids (uuids : List Str) (h : MessageHistory) :
    (run check uuids h).events.map Prod.fst = uuids.map dedupId := by
  induction uuids generalizing h with
  | nil => rfl
  | cons uuid rest ih =>
    rw [run,List.map_append,ih]
    rfl

/-- Only ids that were asked about are in the history. -/
theorem accepted_asked {uuids : List Str} {id : MessageId}
    (accepted : id ∈ acceptedIds (run check uuids new).events) : ∃ uuid ∈ uuids, dedupId uuid = id := by
  simp only [acceptedIds,List.mem_reverse,List.mem_filterMap] at accepted
  obtain ⟨answer,member,taken⟩ := accepted
  have asked : answer.1 ∈ uuids.map dedupId := check_ids uuids new ▸ List.mem_map_of_mem member
  obtain ⟨uuid,within,same⟩ := List.mem_map.mp asked
  refine ⟨uuid,within,same.trans ?_⟩
  split at taken
  · simp at taken
  · exact Option.some.inj taken

/-- Every id a broker stamps has the layout of a version 4 uuid; ids of that layout are
reduced to dedup ids apart from each other, from the empty-slot mark and from what that
mark is remapped to; and a stamped id is taken for a duplicate, after any checks, only
of itself or of an id that is not 16 bytes long. -/
theorem stamped_ids_never_collide :
    (∀ first second, Stamped (generateBinaryUUID first second)) ∧
    (∀ uuid other, Stamped uuid → Stamped other → uuid ≠ other → dedupId uuid ≠ dedupId other) ∧
    (∀ uuid, Stamped uuid → dedupId uuid ≠ .vacant ∧ dedupId uuid ≠ ⟨0,1⟩) ∧
    ∀ uuids uuid, Stamped uuid → ((run check uuids new).state.isDuplicate uuid).2 = true →
      uuid ∈ uuids ∨ ∃ other ∈ uuids, other.length ≠ 16 ∧ dedupId other = dedupId uuid := by
  refine ⟨generateBinaryUUID_stamped,?_,?_,?_⟩
  · intro uuid other stamped otherStamped different
    exact stamped.apart otherStamped.length different
  · intro uuid stamped
    refine ⟨dedupId_ne_vacant uuid,fun remapped => stamped.hi_ne_zero ?_⟩
    rw [← stamped.dedupId_eq,remapped]
  · intro uuids uuid stamped duplicate
    obtain ⟨other,member,same⟩ := accepted_asked ((run_slides uuids).recollects.seen duplicate)
    by_cases sixteen : other.length = 16
    · left
      by_cases different : uuid = other
      · rw [different]
        exact member
      · exact (stamped.apart sixteen different same.symm).elim
    · exact .inr ⟨other,member,sixteen,same⟩

end MessageHistory

end Wisp
