import Mathlib.Algebra.Ring.Nat
import Mathlib.Data.List.Basic
import Mathlib.Data.Nat.Bitwise
import Mathlib.Tactic.Ring

/-!
# Bit strings

The bits of a number, the most significant one first, and back.  Shifting a
number left and adding a smaller one appends bits; shifting right drops them.
-/

namespace Ratspeak.Library

/-- The lowest bits of a number, the most significant one first. -/
def bitsOf : Nat → Nat → List Bool
  | 0, _ => []
  | width + 1, number => number.testBit width :: bitsOf width number

/-- The number whose bits these are, the most significant one first. -/
def ofBits (bits : List Bool) : Nat :=
  bits.foldl (fun number bit => 2 * number + bit.toNat) 0

@[simp]
theorem bitsOf_zero_width (number : Nat) : bitsOf 0 number = [] :=
  rfl

@[simp]
theorem length_bitsOf (width number : Nat) :
    (bitsOf width number).length = width := by
  induction width with
  | zero => rfl
  | succ width ih => simp [bitsOf, ih]

@[simp]
theorem bitsOf_zero (width : Nat) :
    bitsOf width 0 = List.replicate width false := by
  induction width with
  | zero => rfl
  | succ width ih => simp [bitsOf, ih, List.replicate_succ]

/-- Bits above the width do not matter. -/
theorem bitsOf_congr {width first second : Nat} (same : ∀ place, place < width →
      first.testBit place = second.testBit place) :
    bitsOf width first = bitsOf width second := by
  induction width with
  | zero => rfl
  | succ width ih =>
      have top := same width (Nat.lt_succ_self width)
      have lower := ih fun place below =>
        same place (Nat.lt_succ_of_lt below)
      simp only [bitsOf, top, lower]

theorem bitsOf_mod {width bound : Nat} (fits : width ≤ bound) (number : Nat) :
    bitsOf width (number % 2 ^ bound) = bitsOf width number := by
  apply bitsOf_congr
  intro place below
  have inside : place < bound := by omega
  simp [Nat.testBit_mod_two_pow, inside]

theorem bitsOf_add (high low number : Nat) :
    bitsOf (high + low) number =
      bitsOf high (number >>> low) ++ bitsOf low number := by
  induction high with
  | zero => simp
  | succ high ih =>
      have place : high + 1 + low = high + low + 1 := by omega
      have top : (number >>> low).testBit high =
          number.testBit (high + low) := by
        rw [Nat.testBit_shiftRight, Nat.add_comm]
      rw [place]
      simp only [bitsOf, List.cons_append, ih, top]

theorem shiftRight_and_one (number place : Nat) :
    (number >>> place &&& 1 == 1) = number.testBit place := by
  rw [Nat.testBit_eq_decide_div_mod_eq, Nat.and_one_is_mod, Nat.shiftRight_eq_div_pow]
  rfl

theorem take_bitsOf {count width : Nat} (enough : count ≤ width) (number : Nat) :
    (bitsOf width number).take count =
      bitsOf count (number >>> (width - count)) := by
  have split : width = count + (width - count) := by omega
  have pieces := bitsOf_add count (width - count) number
  rw [← split] at pieces
  rw [pieces]
  exact List.take_left' (length_bitsOf count _)

theorem drop_bitsOf {count width : Nat} (enough : count ≤ width) (number : Nat) :
    (bitsOf width number).drop count = bitsOf (width - count) number := by
  have split : width = count + (width - count) := by omega
  have pieces := bitsOf_add count (width - count) number
  rw [← split] at pieces
  rw [pieces]
  exact List.drop_left' (length_bitsOf count _)

/-- Shifting in a smaller number appends its bits. -/
theorem bitsOf_shiftIn {low value : Nat} (fits : value < 2 ^ low) (high number : Nat) :
    bitsOf (high + low) (number <<< low ||| value) =
      bitsOf high number ++ bitsOf low value := by
  have upper : (number <<< low ||| value) >>> low = number := by
    rw [← Nat.shiftLeft_add_eq_or_of_lt fits, Nat.shiftRight_eq_div_pow,
      Nat.shiftLeft_eq, Nat.add_comm, Nat.add_mul_div_right _ _
        (Nat.two_pow_pos low), Nat.div_eq_of_lt fits, Nat.zero_add]
  have lower : bitsOf low (number <<< low ||| value) =
      bitsOf low value := by
    apply bitsOf_congr
    intro place below
    have outside : ¬ low ≤ place := by omega
    simp [Nat.testBit_or, Nat.testBit_shiftLeft, outside]
  rw [bitsOf_add, upper, lower]

private theorem foldl_bits (bits : List Bool) (start : Nat) :
    bits.foldl (fun number bit => 2 * number + bit.toNat) start =
      start * 2 ^ bits.length + ofBits bits := by
  induction bits generalizing start with
  | nil => simp [ofBits]
  | cons bit rest ih =>
      have bitAlone := ih (2 * 0 + bit.toNat)
      have whole := ih (2 * start + bit.toNat)
      simp only [ofBits, List.foldl_cons, List.length_cons] at *
      rw [whole, bitAlone, Nat.pow_succ]
      ring

theorem ofBits_cons (bit : Bool) (rest : List Bool) :
    ofBits (bit :: rest) = bit.toNat * 2 ^ rest.length + ofBits rest := by
  simp only [ofBits, List.foldl_cons]
  rw [foldl_bits]
  simp [ofBits]

theorem ofBits_bitsOf (width number : Nat) :
    ofBits (bitsOf width number) = number % 2 ^ width := by
  induction width with
  | zero => simp [ofBits, Nat.mod_one]
  | succ width ih =>
      have split := Nat.mod_pow_succ (x := number) (b := 2) (k := width)
      simp only [bitsOf, ofBits_cons, length_bitsOf, ih, Nat.toNat_testBit]
      rw [split]
      ring

theorem ofBits_bitsOf_of_lt {width number : Nat} (fits : number < 2 ^ width) :
    ofBits (bitsOf width number) = number := by
  rw [ofBits_bitsOf, Nat.mod_eq_of_lt fits]

/-- The bits of a byte string. -/
def bitsOfBytes (bytes : List UInt8) : List Bool :=
  bytes.flatMap fun byte => bitsOf 8 byte.toNat

@[simp]
theorem bitsOfBytes_nil : bitsOfBytes [] = [] :=
  rfl

@[simp]
theorem bitsOfBytes_cons (byte : UInt8) (rest : List UInt8) :
    bitsOfBytes (byte :: rest) = bitsOf 8 byte.toNat ++ bitsOfBytes rest :=
  rfl

@[simp]
theorem bitsOfBytes_append (first second : List UInt8) :
    bitsOfBytes (first ++ second) =
      bitsOfBytes first ++ bitsOfBytes second := by
  simp [bitsOfBytes]

@[simp]
theorem length_bitsOfBytes (bytes : List UInt8) :
    (bitsOfBytes bytes).length = 8 * bytes.length := by
  induction bytes with
  | nil => rfl
  | cons byte rest ih =>
      rw [bitsOfBytes_cons, List.length_append, length_bitsOf, ih, List.length_cons]
      omega

end Ratspeak.Library
