import Mathlib.Data.List.Forall2
import Mathlib.Algebra.Order.BigOperators.Group.List
import Mathlib.Data.Nat.Digits.Defs

/-!
# Compact JSON text

The text that a serializer without white space writes, as a list of
characters, and its size in UTF-8.  Texts are compared by their sizes: an
object whose members are those of another one, or fewer, with values that
are no longer, is no longer than the other one.
-/

namespace Ratspeak.Library

/-- The number of bytes of a text in UTF-8. -/
def textSize (text : List Char) : Nat :=
  (text.map Char.utf8Size).sum

@[simp]
theorem textSize_append (first second : List Char) :
    textSize (first ++ second) = textSize first + textSize second := by
  simp [textSize]

@[simp]
theorem textSize_nil : textSize [] = 0 := rfl

@[simp]
theorem textSize_cons (char : Char) (rest : List Char) :
    textSize (char :: rest) = char.utf8Size + textSize rest := by
  simp [textSize]

namespace Json

def quote : Char := Char.ofNat 34

def backslash : Char := Char.ofNat 92

/-- A character inside a string. -/
def escaped (char : Char) : List Char :=
  if char = quote then [backslash, quote]
  else if char = backslash then [backslash, backslash]
  else if char.toNat = 8 then [backslash, 'b']
  else if char.toNat = 9 then [backslash, 't']
  else if char.toNat = 10 then [backslash, 'n']
  else if char.toNat = 12 then [backslash, 'f']
  else if char.toNat = 13 then [backslash, 'r']
  else if char.toNat < 32 then
    [backslash, 'u', '0', '0', Nat.digitChar (char.toNat / 16), Nat.digitChar (char.toNat % 16)]
  else [char]

def string (text : String) : List Char :=
  quote :: text.toList.flatMap escaped ++ [quote]

def natural (number : Nat) : List Char :=
  number.repr.toList

def integer (number : Int) : List Char :=
  number.repr.toList

def boolean (value : Bool) : List Char :=
  (if value then "true" else "false").toList

/-- Items with commas between them. -/
def joined : List (List Char) → List Char
  | [] => []
  | first :: rest => first ++ rest.flatMap fun item => ',' :: item

def array (items : List (List Char)) : List Char :=
  '[' :: joined items ++ [']']

def member (entry : String × List Char) : List Char :=
  string entry.1 ++ ':' :: entry.2

def object (members : List (String × List Char)) : List Char :=
  Char.ofNat 123 :: joined (members.map member) ++ [Char.ofNat 125]

/-- A member that is left out if there is no value. -/
def optional (name : String) (value : Option (List Char)) :
    List (String × List Char) :=
  value.toList.map fun text => (name, text)

/-! ## Sizes -/

/-- A text is no longer than another one. -/
def Shorter (first second : List Char) : Prop :=
  textSize first ≤ textSize second

theorem Shorter.refl (text : List Char) : Shorter text text :=
  Nat.le_refl _

/-- An entry has the name of another one and is no longer. -/
def ShorterEntry (first second : String × List Char) : Prop :=
  first.1 = second.1 ∧ Shorter first.2 second.2

theorem ShorterEntry.refl (entry : String × List Char) :
    ShorterEntry entry entry :=
  ⟨rfl, Shorter.refl _⟩

theorem shorter_member {first second : String × List Char}
    (shorter : ShorterEntry first second) :
    Shorter (member first) (member second) := by
  obtain ⟨same, value⟩ := shorter
  have bound : textSize first.2 ≤ textSize second.2 := value
  unfold Shorter member
  rw [same]
  simp only [textSize_append, textSize_cons]
  omega

private theorem textSize_commas (rest : List (List Char)) :
    textSize (rest.flatMap fun item => ',' :: item) =
      (rest.map fun item => textSize item + 1).sum := by
  induction rest with
  | nil => rfl
  | cons item rest ih =>
      have comma : Char.utf8Size ',' = 1 := by decide
      simp only [List.flatMap_cons, textSize_append, textSize_cons,
        ih, comma, List.map_cons, List.sum_cons]
      omega

private theorem textSize_joined (items : List (List Char)) :
    textSize (joined items) =
      (items.map fun item => textSize item + 1).sum - 1 := by
  cases items with
  | nil => rfl
  | cons first rest =>
      simp only [joined, textSize_append, textSize_commas, List.map_cons, List.sum_cons]
      omega

private theorem sum_le_of_sublist {first second : List (List Char)}
    (shorter : List.SublistForall₂ Shorter first second) :
    (first.map fun item => textSize item + 1).sum ≤
      (second.map fun item => textSize item + 1).sum := by
  induction shorter with
  | nil => exact Nat.zero_le _
  | cons bound _ ih =>
      have smaller : textSize _ ≤ textSize _ := bound
      simp only [List.map_cons, List.sum_cons]
      omega
  | cons_right _ ih =>
      simp only [List.map_cons, List.sum_cons]
      omega

theorem shorter_joined {first second : List (List Char)}
    (shorter : List.SublistForall₂ Shorter first second) :
    Shorter (joined first) (joined second) := by
  have total := sum_le_of_sublist shorter
  unfold Shorter
  rw [textSize_joined, textSize_joined]
  omega

private theorem sublistForall₂_of_forall₂ {α β : Type}
    {related : α → β → Prop} {first : List α} {second : List β}
    (all : List.Forall₂ related first second) :
    List.SublistForall₂ related first second := by
  induction all with
  | nil => exact .nil
  | cons head _ ih => exact .cons head ih

/-- Items that are no longer make an array that is no longer. -/
theorem shorter_array {first second : List (List Char)}
    (shorter : List.Forall₂ Shorter first second) :
    Shorter (array first) (array second) := by
  have content := shorter_joined (sublistForall₂_of_forall₂ shorter)
  unfold Shorter at content ⊢
  simp only [array, textSize_append, textSize_cons]
  omega

/-- Fewer and shorter members make an object that is no longer. -/
theorem shorter_object {first second : List (String × List Char)}
    (shorter : List.SublistForall₂ ShorterEntry first second) :
    Shorter (object first) (object second) := by
  have members : List.SublistForall₂ Shorter (first.map member)
      (second.map member) := by
    induction shorter with
    | nil => exact .nil
    | cons head _ ih => exact .cons (shorter_member head) ih
    | cons_right _ ih => exact .cons_right ih
  have content := shorter_joined members
  unfold Shorter at content ⊢
  simp only [object, textSize_append, textSize_cons]
  omega

/-- A character that is one byte of a string. -/
def Plain (char : Char) : Prop :=
  char.utf8Size = 1 ∧ escaped char = [char]

instance (char : Char) : Decidable (Plain char) :=
  inferInstanceAs (Decidable (_ ∧ _))

private theorem textSize_ascii {text : List Char} (ascii : ∀ char ∈ text, char.utf8Size = 1) :
    textSize text = text.length := by
  induction text with
  | nil => rfl
  | cons char rest ih =>
      have head : char.utf8Size = 1 := ascii char (by simp)
      have tail : textSize rest = rest.length :=
        ih fun other inside => ascii other (by simp [inside])
      rw [textSize_cons, head, tail, List.length_cons]
      omega

private theorem flatMap_escaped {text : List Char}
    (plain : ∀ char ∈ text, Plain char) : text.flatMap escaped = text := by
  induction text with
  | nil => rfl
  | cons char rest ih =>
      have head : escaped char = [char] := (plain char (by simp)).2
      have tail : rest.flatMap escaped = rest :=
        ih fun other inside => plain other (by simp [inside])
      rw [List.flatMap_cons, head, tail]
      rfl

theorem textSize_string {text : String} (plain : ∀ char ∈ text.toList, Plain char) :
    textSize (string text) = text.toList.length + 2 := by
  have content : textSize text.toList = text.toList.length :=
    textSize_ascii fun char inside => (plain char inside).1
  have mark : Char.utf8Size quote = 1 := by decide
  unfold string
  rw [flatMap_escaped plain, textSize_append, textSize_cons, textSize_cons,
    content, mark, textSize_nil]
  omega

/-- A string of plain characters is no longer than a longer one. -/
theorem shorter_string {first second : String} (plain : ∀ char ∈ first.toList, Plain char)
    (otherPlain : ∀ char ∈ second.toList, Plain char)
    (length : first.toList.length ≤ second.toList.length) :
    Shorter (string first) (string second) := by
  unfold Shorter
  rw [textSize_string plain, textSize_string otherPlain]
  omega

/-- A number in a string. -/
def decimal (number : Nat) : List Char :=
  string number.repr

private theorem plain_digits (number : Nat) :
    ∀ char ∈ number.repr.toList, Plain char := by
  intro char inside
  rw [Nat.toList_repr] at inside
  have digit : char.isDigit = true :=
    Nat.isDigit_of_mem_toDigits (by decide) (by decide) inside
  simp only [Char.isDigit, Bool.and_eq_true, decide_eq_true_eq] at digit
  obtain ⟨low, high⟩ := digit
  refine ⟨Char.utf8Size_eq_one_iff.mpr (UInt32.le_trans high (by decide)), ?_⟩
  have least : 48 ≤ char.toNat := UInt32.le_iff_toNat_le.mp low
  have most : char.toNat ≤ 57 := UInt32.le_iff_toNat_le.mp high
  have noQuote : char ≠ quote := by
    intro same
    rw [same] at least
    exact absurd least (by decide)
  have noBackslash : char ≠ backslash := by
    intro same
    rw [same] at most
    exact absurd most (by decide)
  unfold escaped
  rw [if_neg noQuote, if_neg noBackslash, if_neg (by omega),
    if_neg (by omega), if_neg (by omega), if_neg (by omega),
    if_neg (by omega), if_neg (by omega)]

private theorem textSize_natural (number : Nat) :
    textSize (natural number) = number.repr.length := by
  rw [natural, textSize_ascii fun char inside =>
    (plain_digits number char inside).1, String.length_toList]

private theorem length_repr_mono {smaller larger : Nat} (ordered : smaller ≤ larger) :
    smaller.repr.length ≤ larger.repr.length := by
  have bound : larger < 10 ^ larger.repr.length :=
    (Nat.length_repr_le_iff Nat.length_repr_pos).mp (Nat.le_refl _)
  exact (Nat.length_repr_le_iff Nat.length_repr_pos).mpr (Nat.lt_of_le_of_lt ordered bound)

/-- A smaller number is no longer. -/
theorem shorter_natural {smaller larger : Nat} (ordered : smaller ≤ larger) :
    Shorter (natural smaller) (natural larger) := by
  unfold Shorter
  rw [textSize_natural, textSize_natural]
  exact length_repr_mono ordered

theorem shorter_decimal {smaller larger : Nat} (ordered : smaller ≤ larger) :
    Shorter (decimal smaller) (decimal larger) := by
  refine shorter_string (plain_digits smaller) (plain_digits larger) ?_
  rw [String.length_toList, String.length_toList]
  exact length_repr_mono ordered

end Json

end Ratspeak.Library
