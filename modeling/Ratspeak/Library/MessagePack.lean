import Mathlib.Algebra.Ring.Nat
import Ratspeak.Library.Words

/-!
# Short MessagePack arrays

The MessagePack form of arrays of at most fifteen unsigned integers and
binaries.  An integer takes the shortest form that holds it, and a binary the
form with a length of one, two or four bytes.  Reading inverts writing, and
the size of an array is bounded by the sizes of its members.
-/

namespace Ratspeak.Library.MessagePack

/-- A member of an array. -/
inductive Scalar where
  | unsigned (number : UInt64)
  | binary (bytes : List UInt8)
  deriving DecidableEq

/-- A member that has a form. -/
def Scalar.Fits : Scalar → Prop
  | .unsigned _ => True
  | .binary bytes => bytes.length < 256 ^ 4

/-- A member whose length takes one byte. -/
def Scalar.Short : Scalar → Prop
  | .unsigned _ => True
  | .binary bytes => bytes.length < 256

theorem Scalar.Short.fits {member : Scalar} (short : member.Short) :
    member.Fits := by
  cases member with
  | unsigned number => trivial
  | binary bytes => exact Nat.lt_trans short (by decide)

/-! ## Writing -/

def writeUnsigned (number : Nat) : List UInt8 :=
  if number < 128 then bigEndian 1 number
  else if number < 256 then 0xcc :: bigEndian 1 number
  else if number < 256 ^ 2 then 0xcd :: bigEndian 2 number
  else if number < 256 ^ 4 then 0xce :: bigEndian 4 number
  else 0xcf :: bigEndian 8 number

def writeBinary (bytes : List UInt8) : List UInt8 :=
  if bytes.length < 256 then 0xc4 :: bigEndian 1 bytes.length ++ bytes
  else if bytes.length < 256 ^ 2 then
    0xc5 :: bigEndian 2 bytes.length ++ bytes
  else 0xc6 :: bigEndian 4 bytes.length ++ bytes

def Scalar.write : Scalar → List UInt8
  | .unsigned number => writeUnsigned number.toNat
  | .binary bytes => writeBinary bytes

/-- The form of an array of at most fifteen members. -/
def writeArray (members : List Scalar) : List UInt8 :=
  UInt8.ofNat (0x90 + members.length) :: members.flatMap Scalar.write

/-! ## Reading -/

/-- The first bytes and the others, if there are enough. -/
def takeBytes (count : Nat) (bytes : List UInt8) :
    Option (List UInt8 × List UInt8) :=
  if count ≤ bytes.length then some (bytes.take count, bytes.drop count)
  else none

def readUnsigned (count : Nat) (bytes : List UInt8) :
    Option (Scalar × List UInt8) :=
  (takeBytes count bytes).map fun pieces =>
    (.unsigned (UInt64.ofNat (ofBigEndian pieces.1)), pieces.2)

def readBinary (count : Nat) (bytes : List UInt8) :
    Option (Scalar × List UInt8) :=
  (takeBytes count bytes).bind fun length =>
    (takeBytes (ofBigEndian length.1) length.2).map fun pieces =>
      (.binary pieces.1, pieces.2)

def readScalar : List UInt8 → Option (Scalar × List UInt8)
  | [] => none
  | lead :: rest =>
      if lead < 128 then some (.unsigned (UInt64.ofNat lead.toNat), rest)
      else if lead = 0xcc then readUnsigned 1 rest
      else if lead = 0xcd then readUnsigned 2 rest
      else if lead = 0xce then readUnsigned 4 rest
      else if lead = 0xcf then readUnsigned 8 rest
      else if lead = 0xc4 then readBinary 1 rest
      else if lead = 0xc5 then readBinary 2 rest
      else if lead = 0xc6 then readBinary 4 rest
      else none

def readScalars :
    Nat → List UInt8 → Option (List Scalar × List UInt8)
  | 0, bytes => some ([], bytes)
  | count + 1, bytes =>
      (readScalar bytes).bind fun first =>
        (readScalars count first.2).map fun others =>
          (first.1 :: others.1, others.2)

/-- The array at the start, and the bytes after it. -/
def readArray : List UInt8 → Option (List Scalar × List UInt8)
  | [] => none
  | lead :: rest =>
      if 0x90 ≤ lead ∧ lead < 0xa0 then readScalars (lead.toNat - 0x90) rest
      else none

/-! ## The round trip -/

theorem takeBytes_append (front back : List UInt8) :
    takeBytes front.length (front ++ back) = some (front, back) := by
  have enough : front.length ≤ (front ++ back).length := by
    rw [List.length_append]
    omega
  rw [takeBytes, if_pos enough, List.take_left, List.drop_left]

theorem takeBytes_bigEndian (count number : Nat) (back : List UInt8) :
    takeBytes count (bigEndian count number ++ back) =
      some (bigEndian count number, back) := by
  have whole := takeBytes_append (bigEndian count number) back
  rwa [length_bigEndian] at whole

theorem readUnsigned_bigEndian {count : Nat} {number : UInt64}
    (fits : number.toNat < 256 ^ count) (back : List UInt8) :
    readUnsigned count (bigEndian count number.toNat ++ back) =
      some (.unsigned number, back) := by
  rw [readUnsigned, takeBytes_bigEndian, Option.map_some,
    ofBigEndian_bigEndian, Nat.mod_eq_of_lt fits, UInt64.ofNat_toNat]

theorem readBinary_bigEndian {count : Nat} {bytes : List UInt8}
    (fits : bytes.length < 256 ^ count) (back : List UInt8) :
    readBinary count (bigEndian count bytes.length ++ bytes ++ back) =
      some (.binary bytes, back) := by
  rw [readBinary, List.append_assoc, takeBytes_bigEndian, Option.bind_some,
    ofBigEndian_bigEndian, Nat.mod_eq_of_lt fits, takeBytes_append,
    Option.map_some]

theorem readScalar_writeUnsigned (number : UInt64) (back : List UInt8) :
    readScalar (writeUnsigned number.toNat ++ back) =
      some (.unsigned number, back) := by
  have small : number.toNat < 256 ^ 8 := number.toNat_lt
  unfold writeUnsigned
  split
  · rename_i one
    have byte : number.toNat / 256 ^ 0 % 256 = number.toNat := by
      rw [Nat.pow_zero, Nat.div_one, Nat.mod_eq_of_lt (by omega)]
    have same : (UInt8.ofNat number.toNat).toNat = number.toNat :=
      UInt8.toNat_ofNat_of_lt' (Nat.lt_trans one (by decide))
    have lead : UInt8.ofNat number.toNat < 128 := by
      rw [UInt8.lt_iff_toNat_lt, same]
      exact one
    rw [bigEndian, bigEndian, byte, List.singleton_append, readScalar,
      if_pos lead, same, UInt64.ofNat_toNat]
  · split
    · rename_i one
      exact @readUnsigned_bigEndian 1 number one back
    · split
      · rename_i two
        exact readUnsigned_bigEndian two back
      · split
        · rename_i four
          exact readUnsigned_bigEndian four back
        · exact readUnsigned_bigEndian small back

theorem readScalar_writeBinary {bytes : List UInt8}
    (fits : bytes.length < 256 ^ 4) (back : List UInt8) :
    readScalar (writeBinary bytes ++ back) = some (.binary bytes, back) := by
  unfold writeBinary
  split
  · rename_i one
    exact @readBinary_bigEndian 1 bytes one back
  · split
    · rename_i two
      exact readBinary_bigEndian two back
    · exact readBinary_bigEndian fits back

theorem readScalar_write {member : Scalar} (fits : member.Fits) (back : List UInt8) :
    readScalar (member.write ++ back) = some (member, back) := by
  cases member with
  | unsigned number => exact readScalar_writeUnsigned number back
  | binary bytes => exact readScalar_writeBinary fits back

theorem readScalars_flatMap {members : List Scalar}
    (fits : ∀ member ∈ members, member.Fits) (back : List UInt8) :
    readScalars members.length (members.flatMap Scalar.write ++ back) =
      some (members, back) := by
  induction members with
  | nil => rfl
  | cons member rest ih =>
      have own := fits member List.mem_cons_self
      have others := ih fun other among =>
        fits other (List.mem_cons_of_mem _ among)
      rw [List.length_cons, readScalars, List.flatMap_cons,
        List.append_assoc, readScalar_write own, Option.bind_some, others,
        Option.map_some]

/-- Reading a short array gives back its members. -/
theorem readArray_writeArray {members : List Scalar}
    (short : members.length < 16) (fits : ∀ member ∈ members, member.Fits) :
    readArray (writeArray members) = some (members, []) := by
  have lead : (UInt8.ofNat (0x90 + members.length)).toNat =
      0x90 + members.length :=
    UInt8.toNat_ofNat_of_lt' (by
      change 144 + members.length < 256
      omega)
  have isArray : 0x90 ≤ UInt8.ofNat (0x90 + members.length) ∧
      UInt8.ofNat (0x90 + members.length) < 0xa0 := by
    rw [UInt8.le_iff_toNat_le, UInt8.lt_iff_toNat_lt, lead]
    change 144 ≤ 144 + members.length ∧ 144 + members.length < 160
    omega
  have whole := readScalars_flatMap fits []
  rw [List.append_nil] at whole
  rw [writeArray, readArray, if_pos isArray, lead, Nat.add_sub_cancel_left, whole]

/-! ## Sizes -/

/-- A bound on the size of a member. -/
def Scalar.sizeBound : Scalar → Nat
  | .unsigned _ => 9
  | .binary bytes => 5 + bytes.length

theorem length_write_le (member : Scalar) :
    member.write.length ≤ member.sizeBound := by
  cases member with
  | unsigned number =>
      simp only [Scalar.write, Scalar.sizeBound, writeUnsigned]
      repeat' split
      all_goals simp
  | binary bytes =>
      simp only [Scalar.write, Scalar.sizeBound, writeBinary]
      repeat' split
      all_goals simp only [List.cons_append, List.length_cons,
        List.length_append, length_bigEndian]
      all_goals omega

theorem length_writeArray_le (members : List Scalar) :
    (writeArray members).length ≤
      1 + (members.map Scalar.sizeBound).sum := by
  rw [writeArray, List.length_cons]
  induction members with
  | nil => simp
  | cons member rest ih =>
      have own := length_write_le member
      rw [List.flatMap_cons, List.length_append, List.map_cons, List.sum_cons]
      omega

end Ratspeak.Library.MessagePack
