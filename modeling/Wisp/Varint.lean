import Mathlib.Algebra.Group.Nat.Defs
import Mathlib.Data.List.Basic

/-! Numbers in groups of seven bits, the lowest first. Every byte but the last has its
high bit set, so that a number says itself where it ends. -/
namespace Varint

/-- The last byte, and no other, has its high bit clear. -/
inductive Ends : List UInt8 → Prop
  | last {byte : UInt8} (clear : byte.toNat < 128) : Ends [byte]
  | more {byte : UInt8} {rest : List UInt8} (set : 128 ≤ byte.toNat) (ends : Ends rest) : Ends (byte :: rest)

def value : List UInt8 → Nat
  | [] => 0
  | byte :: rest => byte.toNat % 128 + 128 * value rest

/-- The bytes of a number, without idle groups behind its highest. -/
def encode (n : Nat) : List UInt8 :=
  if n < 128 then [UInt8.ofNat n] else UInt8.ofNat (n % 128 + 128) :: encode (n / 128)

/-- The number at the front, of so many bytes at most, and what follows it. -/
def split : Nat → List UInt8 → Option (List UInt8 × List UInt8)
  | 0, _ => none
  | _ + 1, [] => none
  | limit + 1, byte :: rest =>
    if byte.toNat < 128 then some ([byte],rest)
    else (split limit rest).map fun found => (byte :: found.1,found.2)

theorem Ends.ne_nil {bytes : List UInt8} (ends : Ends bytes) : bytes ≠ [] := by
  cases ends <;> exact List.cons_ne_nil _ _

theorem Ends.split {front : List UInt8} (ends : Ends front) {limit : Nat} (short : front.length ≤ limit)
    (rest : List UInt8) : split limit (front ++ rest) = some (front,rest) := by
  induction ends generalizing limit with
  | last clear =>
    cases limit with
    | zero => simp at short
    | succ limit => exact if_pos clear
  | more set ends ih =>
    cases limit with
    | zero => simp at short
    | succ limit =>
      have high := Nat.not_lt.mpr set
      rw [List.cons_append,Varint.split,if_neg high,ih (Nat.le_of_succ_le_succ short)]
      rfl

theorem split_some {limit : Nat} {bytes front rest : List UInt8} (found : split limit bytes = some (front,rest)) :
    Ends front ∧ front.length ≤ limit ∧ bytes = front ++ rest := by
  induction limit generalizing bytes front with
  | zero => cases found
  | succ limit ih =>
    cases bytes with
    | nil => cases found
    | cons byte later =>
      rw [split] at found
      split at found
      next clear =>
        cases found
        exact ⟨.last clear,by simp,rfl⟩
      next high =>
        obtain ⟨⟨others,remaining⟩,inner,same⟩ := Option.map_eq_some_iff.mp found
        cases same
        obtain ⟨ends,short,rfl⟩ := ih inner
        exact ⟨.more (Nat.not_lt.mp high) ends,Nat.succ_le_succ short,rfl⟩

/-- No number's bytes lead another's. -/
theorem Ends.unique {front front' rest rest' : List UInt8} (ends : Ends front) (ends' : Ends front')
    (same : front ++ rest = front' ++ rest') : front = front' ∧ rest = rest' := by
  have left := ends.split (Nat.le_add_right front.length front'.length) rest
  rw [same,ends'.split (Nat.le_add_left front'.length front.length) rest'] at left
  cases left
  exact ⟨rfl,rfl⟩

theorem encode_ends (n : Nat) : Ends (encode n) := by
  induction n using encode.induct with
  | case1 n small =>
    rw [encode,if_pos small]
    refine .last ?_
    rw [UInt8.toNat_ofNat']
    omega
  | case2 n large ih =>
    rw [encode,if_neg large]
    refine .more ?_ ih
    rw [UInt8.toNat_ofNat']
    omega

theorem value_encode (n : Nat) : value (encode n) = n := by
  induction n using encode.induct with
  | case1 n small =>
    rw [encode,if_pos small,value,value,UInt8.toNat_ofNat']
    omega
  | case2 n large ih =>
    rw [encode,if_neg large,value,ih,UInt8.toNat_ofNat']
    omega

theorem encode_length_le {n limit : Nat} (small : n < 128 ^ (limit + 1)) : (encode n).length ≤ limit + 1 := by
  induction limit generalizing n with
  | zero =>
    rw [encode,if_pos (by simpa using small)]
    exact Nat.le_refl _
  | succ limit ih =>
    rw [encode]
    split
    · simp
    · rw [List.length_cons]
      refine Nat.succ_le_succ (ih ?_)
      rw [Nat.pow_succ] at small
      exact Nat.div_lt_of_lt_mul (Nat.mul_comm _ 128 ▸ small)

end Varint
