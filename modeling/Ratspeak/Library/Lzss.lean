import Ratspeak.Library.Bits

/-!
# LZSS

A stream of bytes is written as literals and as copies of what came at most a
window ago.  Each item is one flag bit and then the fields of the item.  The
past is kept most recent byte first, and what lies before the stream reads as
zero, as in a window that starts zeroed.  `Rings` connects the past with a
ring buffer.
-/

namespace Ratspeak.Library.Lzss

/-- The widths of the fields of a copy, and the length that is written as
zero. -/
structure Shape where
  indexBits : Nat
  lengthBits : Nat
  minMatch : Nat

/-- One item of a packed stream. -/
inductive Item where
  | literal (byte : UInt8)
  | copy (distance length : Nat)
  deriving DecidableEq, Repr

variable (shape : Shape)

/-- The bits of one item. -/
def Item.bits : Item → List Bool
  | .literal byte => true :: bitsOf 8 byte.toNat
  | .copy distance length =>
      false :: (bitsOf shape.indexBits (distance - 1) ++
        bitsOf shape.lengthBits (length - shape.minMatch))

/-- An item whose fields hold its numbers. -/
def Item.Fits : Item → Prop
  | .literal _ => True
  | .copy distance length =>
      1 ≤ distance ∧ distance ≤ 2 ^ shape.indexBits ∧
        shape.minMatch ≤ length ∧ length < 2 ^ shape.lengthBits + shape.minMatch

/-! ## Reading items -/

/-- The first item of a string of bits, if it is there in full, and the bits
after it. -/
def takeItem : List Bool → Option (Item × List Bool)
  | [] => none
  | true :: rest =>
      if rest.length < 8 then none
      else some (.literal (UInt8.ofNat (ofBits (rest.take 8))), rest.drop 8)
  | false :: rest =>
      if rest.length < shape.indexBits + shape.lengthBits then none
      else
        some (.copy (ofBits (rest.take shape.indexBits) + 1)
            (ofBits ((rest.drop shape.indexBits).take shape.lengthBits) + shape.minMatch),
          rest.drop (shape.indexBits + shape.lengthBits))

theorem takeItem_length {bits rest : List Bool} {item : Item}
    (taken : takeItem shape bits = some (item, rest)) :
    rest.length < bits.length := by
  cases bits with
  | nil => simp [takeItem] at taken
  | cons flag following =>
      cases flag with
      | true =>
          simp only [takeItem, Option.ite_none_left_eq_some,
            Option.some.injEq, Prod.mk.injEq] at taken
          rw [← taken.2.2]
          simp only [List.length_cons, List.length_drop]
          omega
      | false =>
          simp only [takeItem, Option.ite_none_left_eq_some,
            Option.some.injEq, Prod.mk.injEq] at taken
          rw [← taken.2.2]
          simp only [List.length_cons, List.length_drop]
          omega

/-- All items that are there in full, and the bits that are left. -/
def takeItems (bits : List Bool) : List Item × List Bool :=
  match _taken : takeItem shape bits with
  | none => ([], bits)
  | some (item, rest) => (item :: (takeItems rest).1, (takeItems rest).2)
  termination_by bits.length
  decreasing_by exact takeItem_length shape _taken

theorem takeItems_of_none {bits : List Bool} (short : takeItem shape bits = none) :
    takeItems shape bits = ([], bits) := by
  rw [takeItems.eq_def]
  split
  · rfl
  · rename_i item rest taken
    rw [short] at taken
    cases taken

theorem takeItems_of_some {bits rest : List Bool} {item : Item}
    (taken : takeItem shape bits = some (item, rest)) :
    takeItems shape bits =
      (item :: (takeItems shape rest).1, (takeItems shape rest).2) := by
  rw [takeItems.eq_def]
  split
  · rename_i short
    rw [short] at taken
    cases taken
  · rename_i other following alsoTaken
    rw [taken] at alsoTaken
    cases alsoTaken
    rfl

theorem takeItem_append {bits rest : List Bool} {item : Item}
    (taken : takeItem shape bits = some (item, rest)) (more : List Bool) :
    takeItem shape (bits ++ more) = some (item, rest ++ more) := by
  cases bits with
  | nil => simp [takeItem] at taken
  | cons flag following =>
      cases flag with
      | true =>
          simp only [takeItem, Option.ite_none_left_eq_some,
            Option.some.injEq, Prod.mk.injEq] at taken
          obtain ⟨long, isItem, isRest⟩ := taken
          have enough : 8 ≤ following.length := by omega
          have stillLong : ¬ (following ++ more).length < 8 := by
            simp only [List.length_append]
            omega
          simp only [List.cons_append, takeItem, if_neg stillLong,
            List.take_append_of_le_length enough,
            List.drop_append_of_le_length enough, isItem, isRest]
      | false =>
          simp only [takeItem, Option.ite_none_left_eq_some,
            Option.some.injEq, Prod.mk.injEq] at taken
          obtain ⟨long, isItem, isRest⟩ := taken
          have enough : shape.indexBits + shape.lengthBits ≤
              following.length := by
            omega
          have index : shape.indexBits ≤ following.length := by omega
          have lengths : shape.lengthBits ≤
              (following.drop shape.indexBits).length := by
            simp only [List.length_drop]
            omega
          have stillLong : ¬ (following ++ more).length <
              shape.indexBits + shape.lengthBits := by
            simp only [List.length_append]
            omega
          simp only [List.cons_append, takeItem, if_neg stillLong,
            List.take_append_of_le_length index,
            List.drop_append_of_le_length index,
            List.take_append_of_le_length lengths,
            List.drop_append_of_le_length enough, isItem, isRest]

/-- Items can be read as the bits arrive: what is left waits for more. -/
theorem takeItems_append (bits more : List Bool) :
    takeItems shape (bits ++ more) =
      ((takeItems shape bits).1 ++
          (takeItems shape ((takeItems shape bits).2 ++ more)).1,
        (takeItems shape ((takeItems shape bits).2 ++ more)).2) := by
  induction bits using takeItems.induct shape with
  | case1 bits short => simp [takeItems_of_none shape short]
  | case2 bits item rest taken ih =>
      rw [takeItems_of_some shape (takeItem_append shape taken more),
        takeItems_of_some shape taken, ih]
      simp

/-- What is left after reading items holds no item. -/
theorem takeItem_left (bits : List Bool) :
    takeItem shape (takeItems shape bits).2 = none := by
  induction bits using takeItems.induct shape with
  | case1 bits short =>
      rw [takeItems_of_none shape short]
      exact short
  | case2 bits item rest taken ih =>
      rw [takeItems_of_some shape taken]
      exact ih

/-- Bits without an item are fewer than the longest item has. -/
theorem length_of_takeItem_none {bits : List Bool} (short : takeItem shape bits = none) :
    bits.length ≤ max 8 (shape.indexBits + shape.lengthBits) := by
  cases bits with
  | nil => simp
  | cons flag rest =>
      cases flag with
      | true =>
          simp only [takeItem, ite_eq_left_iff, reduceCtorEq, imp_false,
            Decidable.not_not] at short
          simp only [List.length_cons]
          omega
      | false =>
          simp only [takeItem, ite_eq_left_iff, reduceCtorEq, imp_false,
            Decidable.not_not] at short
          simp only [List.length_cons]
          omega

theorem takeItem_bits {item : Item} (fits : item.Fits shape) (rest : List Bool) :
    takeItem shape (item.bits shape ++ rest) = some (item, rest) := by
  cases item with
  | literal byte =>
      have small : byte.toNat < 2 ^ 8 := byte.toNat_lt
      have eight : (bitsOf 8 byte.toNat).length = 8 := length_bitsOf 8 _
      have front : (bitsOf 8 byte.toNat ++ rest).take 8 =
          bitsOf 8 byte.toNat := List.take_left' eight
      have back : (bitsOf 8 byte.toNat ++ rest).drop 8 = rest :=
        List.drop_left' eight
      have long : ¬ (bitsOf 8 byte.toNat ++ rest).length < 8 := by
        simp
      simp only [Item.bits, List.cons_append, takeItem, if_neg long, front,
        back, ofBits_bitsOf_of_lt small, UInt8.ofNat_toNat]
  | copy distance length =>
      obtain ⟨atLeastOne, inWindow, longEnough, notTooLong⟩ := fits
      have indexFits : distance - 1 < 2 ^ shape.indexBits := by omega
      have lengthFits : length - shape.minMatch < 2 ^ shape.lengthBits := by
        omega
      have index : (bitsOf shape.indexBits (distance - 1)).length =
          shape.indexBits := length_bitsOf _ _
      have lengths : (bitsOf shape.lengthBits
          (length - shape.minMatch)).length = shape.lengthBits :=
        length_bitsOf _ _
      have long : ¬ (bitsOf shape.indexBits (distance - 1) ++
          (bitsOf shape.lengthBits (length - shape.minMatch) ++
            rest)).length < shape.indexBits + shape.lengthBits := by
        simp only [List.length_append, index, lengths]
        omega
      have both : (bitsOf shape.indexBits (distance - 1) ++
          (bitsOf shape.lengthBits (length - shape.minMatch) ++
            rest)).drop (shape.indexBits + shape.lengthBits) = rest := by
        rw [← List.drop_drop, List.drop_left' index, List.drop_left' lengths]
      have distanceBack : distance - 1 + 1 = distance := by omega
      have lengthBack : length - shape.minMatch + shape.minMatch =
          length := by
        omega
      simp only [Item.bits, List.cons_append, List.append_assoc, takeItem,
        if_neg long, List.take_left' index, List.drop_left' index,
        List.take_left' lengths, both, ofBits_bitsOf_of_lt indexFits,
        ofBits_bitsOf_of_lt lengthFits, distanceBack, lengthBack]

/-- Written items are read back; what follows them and holds no item is
left. -/
theorem takeItems_bits {items : List Item}
    (fit : ∀ item ∈ items, item.Fits shape) {rest : List Bool}
    (short : takeItem shape rest = none) :
    takeItems shape (items.flatMap (Item.bits shape) ++ rest) =
      (items, rest) := by
  induction items with
  | nil => exact takeItems_of_none shape short
  | cons item items ih =>
      have readFirst := takeItem_bits shape
        (fit item List.mem_cons_self)
        (items.flatMap (Item.bits shape) ++ rest)
      have others := ih fun other among =>
        fit other (List.mem_cons_of_mem item among)
      rw [List.flatMap_cons, List.append_assoc, takeItems_of_some shape readFirst, others]

/-! ## Expanding items -/

/-- The byte that came a distance ago; before the stream lies zero. -/
def byteBack (past : List UInt8) (distance : Nat) : UInt8 :=
  past.getD (distance - 1) 0

/-- The bytes that copying from a distance ago yields. -/
def copied (past : List UInt8) (distance : Nat) : Nat → List UInt8
  | 0 => []
  | count + 1 =>
      byteBack past distance :: copied (byteBack past distance :: past) distance count

/-- The bytes of one item. -/
def Item.expand (past : List UInt8) : Item → List UInt8
  | .literal byte => [byte]
  | .copy distance length => copied past distance length

/-- The bytes of a stream of items. -/
def expand (past : List UInt8) : List Item → List UInt8
  | [] => []
  | item :: rest => item.expand past ++ expand ((item.expand past).reverse ++ past) rest

theorem expand_append (past : List UInt8) (first second : List Item) :
    expand past (first ++ second) =
      expand past first ++
        expand ((expand past first).reverse ++ past) second := by
  induction first generalizing past with
  | nil => simp [expand]
  | cons item rest ih => simp [expand, ih]

/-- Copying bytes that were compared with the input yields the input. -/
theorem copied_of_agrees {input : List UInt8} {position distance : Nat}
    (positive : 1 ≤ distance) (within : distance ≤ position)
    (count : Nat) (inside : position + count ≤ input.length) (agrees : ∀ step, step < count →
      input[position - distance + step]? = input[position + step]?) :
    copied (input.take position).reverse distance count =
      (input.drop position).take count := by
  induction count generalizing position with
  | zero => simp [copied]
  | succ count ih =>
      have here : position < input.length := by omega
      have source : position - distance < input.length := by omega
      have first := agrees 0 (by omega)
      simp only [Nat.add_zero, List.getElem?_eq_getElem here,
        List.getElem?_eq_getElem source, Option.some.injEq] at first
      have long : (input.take position).length = position := by
        rw [List.length_take]
        omega
      have recalled : byteBack (input.take position).reverse distance =
          input[position] := by
        have place : distance - 1 < (input.take position).reverse.length := by
          rw [List.length_reverse, long]
          omega
        have mirrored : (input.take position).length - 1 - (distance - 1) =
            position - distance := by
          omega
        rw [byteBack, List.getD_eq_getElem _ _ place, List.getElem_reverse, List.getElem_take]
        simp only [mirrored, first]
      have next : input[position] :: (input.take position).reverse =
          (input.take (position + 1)).reverse := by
        rw [List.take_add_one, List.getElem?_eq_getElem here]
        simp only [Option.toList_some, List.reverse_append,
          List.reverse_cons, List.reverse_nil, List.nil_append,
          List.cons_append]
      have others : ∀ step, step < count →
          input[position + 1 - distance + step]? =
            input[position + 1 + step]? := by
        intro step below
        have shifted := agrees (step + 1) (by omega)
        have left : position - distance + (step + 1) =
            position + 1 - distance + step := by
          omega
        have right : position + (step + 1) = position + 1 + step := by
          omega
        rw [← left, ← right]
        exact shifted
      have tail := ih (by omega) (by omega) others
      rw [copied, recalled, next, tail, List.drop_eq_getElem_cons here, List.take_succ_cons]

/-! ## The window as a ring -/

/-- The ring holds the past: a distance back from the write position is the
byte that came that distance ago. -/
def Rings {size : Nat} (window : Vector UInt8 size) (position : Nat)
    (past : List UInt8) : Prop :=
  ∀ distance, 1 ≤ distance → distance ≤ size →
    window[(position + size - distance) % size]? = some (byteBack past distance)

theorem rings_zeroed (size : Nat) :
    Rings (Vector.replicate size (0 : UInt8)) 0 [] := by
  intro distance positive within
  have inside : (0 + size - distance) % size < size :=
    Nat.mod_lt _ (by omega)
  rw [Vector.getElem?_eq_getElem inside]
  simp [byteBack]

/-- Storing a byte at the write position makes it the most recent one. -/
theorem Rings.store {size : Nat} {window : Vector UInt8 size}
    {position : Nat} {past : List UInt8}
    (rings : Rings window position past) (within : position < size) (byte : UInt8) :
    Rings (window.set position byte within) ((position + 1) % size)
      (byte :: past) := by
  intro distance positive bounded
  by_cases latest : distance = 1
  · have place : ((position + 1) % size + size - distance) % size =
        position := by
      subst latest
      by_cases wraps : position + 1 = size
      · rw [wraps, Nat.mod_self, Nat.zero_add,
          Nat.mod_eq_of_lt (by omega)]
        omega
      · rw [Nat.mod_eq_of_lt (show position + 1 < size by omega)]
        have whole : position + 1 + size - 1 = position + size := by omega
        rw [whole, Nat.add_mod_right, Nat.mod_eq_of_lt within]
    rw [place, Vector.getElem?_eq_getElem within, Vector.getElem_set_self]
    simp [byteBack, latest]
  · have older := rings (distance - 1) (by omega) (by omega)
    have place : ((position + 1) % size + size - distance) % size =
        (position + size - (distance - 1)) % size := by
      by_cases wraps : position + 1 = size
      · rw [wraps, Nat.mod_self]
        have whole : position + size - (distance - 1) =
            0 + size - distance + size := by
          omega
        rw [whole, Nat.add_mod_right]
      · rw [Nat.mod_eq_of_lt (show position + 1 < size by omega)]
        congr 1
        omega
    have inside : (position + size - (distance - 1)) % size < size :=
      Nat.mod_lt _ (by omega)
    have elsewhere : position ≠
        (position + size - (distance - 1)) % size := by
      intro same
      by_cases below : position < distance - 1
      · rw [Nat.mod_eq_of_lt (by omega)] at same
        omega
      · have whole : position + size - (distance - 1) =
            position - (distance - 1) + size := by
          omega
        rw [whole, Nat.add_mod_right, Nat.mod_eq_of_lt (by omega)] at same
        omega
    have earlier : byteBack (byte :: past) distance =
        byteBack past (distance - 1) := by
      have split : distance - 1 = distance - 1 - 1 + 1 := by omega
      simp only [byteBack]
      rw [split, List.getD_cons_succ]
      simp
    rw [place, earlier, ← older, Vector.getElem?_eq_getElem inside,
      Vector.getElem?_eq_getElem inside,
      Vector.getElem_set_ne within inside elsewhere]

end Ratspeak.Library.Lzss
