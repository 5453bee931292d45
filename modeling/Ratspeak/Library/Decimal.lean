import Mathlib.Data.List.Basic

/-!
# Decimal numbers of a machine word

Numbers of 64 bits, without and with a sign, as text and back.
-/

namespace Ratspeak.Library

def u64Max : Nat := 18446744073709551615

/-- A sum that stays at the largest number. -/
def saturatingAdd (first second : Nat) : Nat :=
  min (first + second) u64Max

theorem saturatingAdd_of_le {first second bound : Nat}
    (fits : first + second ≤ bound) (small : bound ≤ u64Max) :
    saturatingAdd first second = first + second :=
  Nat.min_eq_left (Nat.le_trans fits small)

/-- Where the sum is beyond a limit that is not the largest number, so is the
sum that saturates. -/
theorem lt_saturatingAdd_iff {first second limit : Nat} (below : limit < u64Max) :
    limit < saturatingAdd first second ↔ limit < first + second := by
  unfold saturatingAdd
  rw [Nat.lt_min]
  exact ⟨fun both => both.1, fun beyond => ⟨beyond, below⟩⟩

/-- The number that a text spells, after an optional plus sign. -/
def parseU64 (text : String) : Option Nat :=
  let digits :=
    match text.toList with
    | '+' :: rest => rest
    | chars => chars
  if digits ≠ [] ∧ digits.all Char.isDigit ∧
      Nat.ofDigitChars 10 digits 0 ≤ u64Max then
    some (Nat.ofDigitChars 10 digits 0)
  else none

private theorem digits_repr (number : Nat) :
    ∀ char ∈ Nat.toDigits 10 number, char.isDigit = true := by
  intro char inside
  exact Nat.isDigit_of_mem_toDigits (by decide) (by decide) inside

/-- A number that is written is read back. -/
theorem parseU64_repr {number : Nat} (small : number ≤ u64Max) :
    parseU64 number.repr = some number := by
  have digits : (match number.repr.toList with
      | '+' :: rest => rest
      | chars => chars) = Nat.toDigits 10 number := by
    rw [Nat.toList_repr]
    split
    · rename_i rest same
      have sign := digits_repr number '+' (by rw [same]; exact .head rest)
      exact absurd sign (by decide)
    · rfl
  unfold parseU64
  rw [digits]
  dsimp only
  rw [Nat.ofDigitChars_ten_toDigits, if_pos]
  refine ⟨Nat.toDigits_ne_nil, ?_, small⟩
  exact List.all_eq_true.mpr (digits_repr number)

def i64Max : Nat := 9223372036854775807

/-- The number with a sign that a text spells. -/
def parseI64 (text : String) : Option Int :=
  let (negative, digits) :=
    match text.toList with
    | '+' :: rest => (false, rest)
    | '-' :: rest => (true, rest)
    | chars => (false, chars)
  let size := Nat.ofDigitChars 10 digits 0
  if digits ≠ [] ∧ digits.all Char.isDigit ∧
      size ≤ (if negative then i64Max + 1 else i64Max) then
    some (if negative then -size else size)
  else none

/-- Different numbers are written differently. -/
theorem repr_injective {left right : Nat} (small : left ≤ u64Max)
    (otherSmall : right ≤ u64Max) (same : left.repr = right.repr) :
    left = right := by
  have read := parseU64_repr small
  rw [same, parseU64_repr otherSmall] at read
  exact (Option.some.inj read).symm

end Ratspeak.Library
