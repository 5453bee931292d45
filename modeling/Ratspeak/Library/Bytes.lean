import Mathlib.Algebra.Ring.Nat
import Mathlib.Data.List.Basic

/-!
# Byte strings

Byte strings of a fixed length, their big-endian numbers, and the hexadecimal
form in which they are stored and shown.  Decoding accepts both cases and
inverts encoding.
-/

namespace Ratspeak.Library

/-- The byte strings of one length. -/
abbrev Bytes (length : Nat) :=
  { bytes : List UInt8 // bytes.length = length }

namespace Bytes

/-- The bytes as a string of the given length, if they have it. -/
def ofList (length : Nat) (bytes : List UInt8) : Option (Bytes length) :=
  if fits : bytes.length = length then some ⟨bytes, fits⟩ else none

@[simp]
theorem ofList_val {length : Nat} (bytes : Bytes length) :
    ofList length bytes.val = some bytes := by
  simp [ofList, bytes.property]

/-- The byte string that repeats one byte. -/
def replicate (length : Nat) (byte : UInt8) : Bytes length :=
  ⟨List.replicate length byte, List.length_replicate⟩

instance (length : Nat) : Inhabited (Bytes length) :=
  ⟨replicate length 0⟩

end Bytes

/-- The lowest `count` bytes of a number, the most significant one first. -/
def bigEndian : Nat → Nat → List UInt8
  | 0, _ => []
  | count + 1, number =>
      UInt8.ofNat (number / 256 ^ count % 256) :: bigEndian count number

@[simp]
theorem length_bigEndian (count number : Nat) :
    (bigEndian count number).length = count := by
  induction count with
  | zero => rfl
  | succ count ih => simp [bigEndian, ih]

/-- The lowest `count` bytes of a number, the least significant one first. -/
def littleEndian : Nat → Nat → List UInt8
  | 0, _ => []
  | count + 1, number => UInt8.ofNat (number % 256) :: littleEndian count (number / 256)

/-- The number whose bytes these are, the least significant one first. -/
def ofLittleEndian : List UInt8 → Nat
  | [] => 0
  | byte :: rest => byte.toNat + 256 * ofLittleEndian rest

@[simp]
theorem length_littleEndian (count number : Nat) :
    (littleEndian count number).length = count := by
  induction count generalizing number with
  | zero => rfl
  | succ count ih => simp [littleEndian, ih]

theorem ofLittleEndian_lt (bytes : List UInt8) :
    ofLittleEndian bytes < 256 ^ bytes.length := by
  induction bytes with
  | nil => simp [ofLittleEndian]
  | cons byte rest ih =>
      have small : byte.toNat < 256 := byte.toNat_lt
      simp only [ofLittleEndian, List.length_cons, Nat.pow_succ]
      omega

theorem ofLittleEndian_littleEndian {count number : Nat} (fits : number < 256 ^ count) :
    ofLittleEndian (littleEndian count number) = number := by
  induction count generalizing number with
  | zero =>
      simp only [Nat.pow_zero] at fits
      simp only [littleEndian, ofLittleEndian]
      omega
  | succ count ih =>
      have rest : number / 256 < 256 ^ count := by
        rw [Nat.pow_succ] at fits
        omega
      have byte : (UInt8.ofNat (number % 256)).toNat = number % 256 :=
        UInt8.toNat_ofNat_of_lt' (Nat.mod_lt _ (by decide))
      simp only [littleEndian, ofLittleEndian, ih rest, byte]
      omega

/-! ## Hexadecimal form -/

def hexDigit (nibble : Nat) : Char :=
  if nibble < 10 then Char.ofNat (48 + nibble) else Char.ofNat (87 + nibble)

def hexValue (char : Char) : Option Nat :=
  let code := char.toNat
  if 48 ≤ code ∧ code ≤ 57 then some (code - 48)
  else if 97 ≤ code ∧ code ≤ 102 then some (code - 87)
  else if 65 ≤ code ∧ code ≤ 70 then some (code - 55)
  else none

def isAsciiHexDigit (char : Char) : Bool :=
  (hexValue char).isSome

def hexChars : List UInt8 → List Char
  | [] => []
  | byte :: rest =>
      hexDigit (byte.toNat / 16) :: hexDigit (byte.toNat % 16) :: hexChars rest

/-- The lowercase hexadecimal form. -/
def hexEncode (bytes : List UInt8) : String :=
  String.ofList (hexChars bytes)

def hexBytes : List Char → Option (List UInt8)
  | [] => some []
  | [_] => none
  | high :: low :: rest =>
      match hexValue high, hexValue low, hexBytes rest with
      | some upper, some lower, some bytes =>
          some (UInt8.ofNat (16 * upper + lower) :: bytes)
      | _, _, _ => none

/-- The bytes of a hexadecimal text of even length. -/
def hexDecode (text : String) : Option (List UInt8) :=
  hexBytes text.toList

private theorem hexValue_hexDigit :
    ∀ nibble < 16, hexValue (hexDigit nibble) = some nibble := by
  decide

private theorem hexBytes_hexChars (bytes : List UInt8) :
    hexBytes (hexChars bytes) = some bytes := by
  induction bytes with
  | nil => rfl
  | cons byte rest ih =>
      have small : byte.toNat < 256 := byte.toNat_lt
      have upper := hexValue_hexDigit (byte.toNat / 16) (by omega)
      have lower := hexValue_hexDigit (byte.toNat % 16) (by omega)
      have whole : 16 * (byte.toNat / 16) + byte.toNat % 16 = byte.toNat :=
        Nat.div_add_mod byte.toNat 16
      simp [hexChars, hexBytes, upper, lower, ih, whole]

/-- Decoding inverts encoding. -/
theorem hexDecode_hexEncode (bytes : List UInt8) :
    hexDecode (hexEncode bytes) = some bytes := by
  rw [hexDecode, hexEncode, String.toList_ofList]
  exact hexBytes_hexChars bytes

theorem hexEncode_injective {left right : List UInt8}
    (equal : hexEncode left = hexEncode right) : left = right := by
  have decoded := congrArg hexDecode equal
  rw [hexDecode_hexEncode, hexDecode_hexEncode] at decoded
  exact Option.some.inj decoded

private theorem digits_hexValue {char : Char} {nibble : Nat}
    (digit : hexValue char = some nibble) :
    nibble < 16 ∧ hexDigit nibble = char.toLower := by
  have known (code : Nat) (small : code < 128)
      (digit : hexValue (Char.ofNat code) = some nibble) :
      nibble < 16 ∧ hexDigit nibble = (Char.ofNat code).toLower := by
    have all : ∀ code < 128, ∀ nibble ∈ hexValue (Char.ofNat code),
        nibble < 16 ∧ hexDigit nibble = (Char.ofNat code).toLower := by
      decide
    exact all code small nibble digit
  have small : char.toNat < 128 := by
    unfold hexValue at digit
    dsimp only at digit
    split at digit
    · omega
    · split at digit
      · omega
      · split at digit
        · omega
        · cases digit
  have same : Char.ofNat char.toNat = char := Char.ofNat_toNat char
  rw [← same] at digit ⊢
  exact known char.toNat small digit

private theorem hexChars_hexBytes :
    ∀ (chars : List Char) (bytes : List UInt8),
      hexBytes chars = some bytes →
      hexChars bytes = chars.map Char.toLower
  | [], _, decoded => by
      cases decoded
      rfl
  | [_], _, decoded => by
      cases decoded
  | high :: low :: rest, bytes, decoded => by
      rw [hexBytes] at decoded
      split at decoded
      · rename_i upper lower tail isUpper isLower isTail
        cases decoded
        obtain ⟨upperSmall, upperDigit⟩ := digits_hexValue isUpper
        obtain ⟨lowerSmall, lowerDigit⟩ := digits_hexValue isLower
        have fits : 16 * upper + lower < 256 := by omega
        have byte : (UInt8.ofNat (16 * upper + lower)).toNat =
            16 * upper + lower :=
          UInt8.toNat_ofNat_of_lt' fits
        have first : (16 * upper + lower) / 16 = upper := by omega
        have second : (16 * upper + lower) % 16 = lower := by omega
        rw [hexChars, byte, first, second, upperDigit, lowerDigit,
          hexChars_hexBytes rest tail isTail]
        rfl
      · cases decoded

theorem length_hexEncode (bytes : List UInt8) :
    (hexEncode bytes).toList.length = 2 * bytes.length := by
  rw [hexEncode, String.toList_ofList]
  induction bytes with
  | nil => rfl
  | cons byte rest ih =>
      simp only [hexChars, List.length_cons, ih]
      omega

end Ratspeak.Library
