import Ratspeak.Library.Bytes

/-!
# Words in big-endian order

Machine words as the bytes that spell them, the most significant one first,
and back.  Spelling and reading are inverse to each other in both directions:
every byte string of the right length spells exactly one word.
-/

namespace Ratspeak.Library

/-- The number whose bytes these are, the most significant one first. -/
def ofBigEndian : List UInt8 → Nat
  | [] => 0
  | byte :: rest => byte.toNat * 256 ^ rest.length + ofBigEndian rest

theorem ofBigEndian_lt (bytes : List UInt8) :
    ofBigEndian bytes < 256 ^ bytes.length := by
  induction bytes with
  | nil => exact Nat.one_pos
  | cons byte rest ih =>
      have small : byte.toNat + 1 ≤ 256 := byte.toNat_lt
      calc
        byte.toNat * 256 ^ rest.length + ofBigEndian rest <
            byte.toNat * 256 ^ rest.length + 256 ^ rest.length :=
          Nat.add_lt_add_left ih _
        _ = (byte.toNat + 1) * 256 ^ rest.length :=
          (Nat.succ_mul _ _).symm
        _ ≤ 256 * 256 ^ rest.length := Nat.mul_le_mul_right _ small
        _ = 256 ^ (rest.length + 1) := by
          rw [Nat.pow_succ, Nat.mul_comm]

theorem ofBigEndian_bigEndian (count number : Nat) :
    ofBigEndian (bigEndian count number) = number % 256 ^ count := by
  induction count with
  | zero => rw [bigEndian, ofBigEndian, Nat.pow_zero, Nat.mod_one]
  | succ count ih =>
      have byte : (UInt8.ofNat (number / 256 ^ count % 256)).toNat =
          number / 256 ^ count % 256 :=
        UInt8.toNat_ofNat_of_lt' (Nat.mod_lt _ (by decide))
      rw [bigEndian, ofBigEndian, ih, byte,
        length_bigEndian, Nat.pow_succ, Nat.mod_mul, Nat.add_comm,
        Nat.mul_comm]

/-- Only what fits the bytes counts. -/
theorem bigEndian_mul_add (count high low : Nat) :
    bigEndian count (high * 256 ^ count + low) = bigEndian count low := by
  induction count generalizing high with
  | zero => rfl
  | succ count ih =>
      have split : high * 256 ^ (count + 1) + low =
          low + high * 256 * 256 ^ count := by
        rw [Nat.pow_succ, Nat.mul_comm (256 ^ count), ← Nat.mul_assoc, Nat.add_comm]
      have lead : (low + high * 256 * 256 ^ count) / 256 ^ count % 256 =
          low / 256 ^ count % 256 := by
        rw [Nat.add_mul_div_right _ _ (Nat.pow_pos (by decide)),
          Nat.add_mul_mod_self_right]
      rw [bigEndian, bigEndian, split, lead, Nat.add_comm low, ih]

theorem bigEndian_ofBigEndian (bytes : List UInt8) :
    bigEndian bytes.length (ofBigEndian bytes) = bytes := by
  induction bytes with
  | nil => rfl
  | cons byte rest ih =>
      have small : ofBigEndian rest < 256 ^ rest.length :=
        ofBigEndian_lt rest
      have lead : (byte.toNat * 256 ^ rest.length + ofBigEndian rest) /
          256 ^ rest.length % 256 = byte.toNat := by
        rw [Nat.add_comm, Nat.add_mul_div_right _ _
            (Nat.pow_pos (by decide)),
          Nat.div_eq_of_lt small, Nat.zero_add,
          Nat.mod_eq_of_lt byte.toNat_lt]
      rw [List.length_cons, bigEndian, ofBigEndian, lead,
        bigEndian_mul_add, ih, UInt8.ofNat_toNat]

/-! ## Words of two and four bytes -/

/-- The bytes from one place up to another. -/
def slice (bytes : List UInt8) (start stop : Nat) : List UInt8 :=
  (bytes.take stop).drop start

def be16 (bytes : List UInt8) : UInt16 :=
  UInt16.ofNat (ofBigEndian (bytes.take 2))

def be32 (bytes : List UInt8) : UInt32 :=
  UInt32.ofNat (ofBigEndian (bytes.take 4))

def toBeBytes16 (word : UInt16) : List UInt8 :=
  bigEndian 2 word.toNat

def toBeBytes32 (word : UInt32) : List UInt8 :=
  bigEndian 4 word.toNat

@[simp]
theorem length_toBeBytes16 (word : UInt16) :
    (toBeBytes16 word).length = 2 :=
  length_bigEndian 2 _

@[simp]
theorem length_toBeBytes32 (word : UInt32) :
    (toBeBytes32 word).length = 4 :=
  length_bigEndian 4 _

@[simp]
theorem be16_toBeBytes16 (word : UInt16) (rest : List UInt8) :
    be16 (toBeBytes16 word ++ rest) = word := by
  have small : word.toNat < 256 ^ 2 := word.toNat_lt
  rw [be16, List.take_left' (length_toBeBytes16 word), toBeBytes16,
    ofBigEndian_bigEndian, Nat.mod_eq_of_lt small, UInt16.ofNat_toNat]

@[simp]
theorem be32_toBeBytes32 (word : UInt32) (rest : List UInt8) :
    be32 (toBeBytes32 word ++ rest) = word := by
  have small : word.toNat < 256 ^ 4 := word.toNat_lt
  rw [be32, List.take_left' (length_toBeBytes32 word), toBeBytes32,
    ofBigEndian_bigEndian, Nat.mod_eq_of_lt small, UInt32.ofNat_toNat]

theorem toBeBytes32_be32 {bytes : List UInt8} (four : bytes.length = 4) :
    toBeBytes32 (be32 bytes) = bytes := by
  have small : ofBigEndian bytes < 2 ^ 32 := by
    have bound := ofBigEndian_lt bytes
    rw [four] at bound
    exact bound
  have whole := bigEndian_ofBigEndian bytes
  rw [four] at whole
  rw [toBeBytes32, be32, List.take_of_length_le (Nat.le_of_eq four),
    UInt32.toNat_ofNat_of_lt' small, whole]

end Ratspeak.Library
