import Mathlib.Data.Nat.ModEq

/-! Numbers as a fixed count of bytes, the lowest first. -/
namespace LittleEndian

def bytesOf : Nat → Nat → List UInt8
  | 0, _ => []
  | count + 1, value => UInt8.ofNat (value % 256) :: bytesOf count (value / 256)

def valueOf : List UInt8 → Nat
  | [] => 0
  | byte :: rest => byte.toNat + 256 * valueOf rest

@[simp] theorem bytesOf_length (count value : Nat) : (bytesOf count value).length = count := by
  induction count generalizing value with
  | zero => rfl
  | succ count ih => rw [bytesOf,List.length_cons,ih]

theorem valueOf_bytesOf (count value : Nat) : valueOf (bytesOf count value) = value % 256 ^ count := by
  induction count generalizing value with
  | zero => rw [pow_zero,Nat.mod_one]; rfl
  | succ count ih =>
    have byte : (UInt8.ofNat (value % 256)).toNat = value % 256 := by
      rw [UInt8.toNat_ofNat']
      omega
    rw [bytesOf,valueOf,ih,byte,pow_succ',Nat.mod_mul]

theorem valueOf_lt (bytes : List UInt8) : valueOf bytes < 256 ^ bytes.length := by
  induction bytes with
  | nil => exact Nat.one_pos
  | cons byte rest ih =>
    have small := byte.toNat_lt
    rw [valueOf,List.length_cons,pow_succ']
    omega

theorem bytesOf_valueOf (bytes : List UInt8) : bytesOf bytes.length (valueOf bytes) = bytes := by
  induction bytes with
  | nil => rfl
  | cons byte rest ih =>
    have small := byte.toNat_lt
    have low : (valueOf (byte :: rest)) % 256 = byte.toNat := by
      rw [valueOf]
      omega
    have high : (valueOf (byte :: rest)) / 256 = valueOf rest := by
      rw [valueOf]
      omega
    rw [List.length_cons,bytesOf,low,high,ih,UInt8.ofNat_toNat]

end LittleEndian
