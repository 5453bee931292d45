import Ratspeak.Delta.Create
import Ratspeak.Delta.Meaning

/-!
# Packing is undone

Whatever the hash chains offer, a match is only written after its bytes were
compared, so the items expand to the input; and the bit writer writes the bits
of the items and then fewer than eight zeros.
-/

namespace Ratspeak.Delta.Create

open Library

/-! ## The bit writer -/

/-- The bits that were put. -/
def BitWriter.bits (writer : BitWriter) : List Bool :=
  bitsOfBytes writer.bytes ++ bitsOf writer.count writer.acc

theorem BitWriter.bits_drain (writer : BitWriter) :
    writer.drain.bits = writer.bits ∧ writer.drain.count < 8 := by
  induction writer using BitWriter.drain.induct with
  | case1 writer full ih =>
      rw [BitWriter.drain, if_pos full]
      refine ⟨ih.1.trans ?_, ih.2⟩
      have split : writer.count = 8 + (writer.count - 8) := by omega
      have pieces := bitsOf_add 8 (writer.count - 8) writer.acc
      rw [← split] at pieces
      have low : bitsOf 8
          (UInt8.ofNat (writer.acc >>> (writer.count - 8))).toNat =
            bitsOf 8 (writer.acc >>> (writer.count - 8)) := by
        rw [UInt8.toNat_ofNat']
        exact bitsOf_mod (Nat.le_refl 8) _
      simp only [BitWriter.bits, bitsOfBytes_append, bitsOfBytes_cons,
        bitsOfBytes_nil, List.append_nil, low, pieces, List.append_assoc]
  | case2 writer short =>
      rw [BitWriter.drain, if_neg short]
      exact ⟨rfl, by omega⟩

/-- Putting a field appends its bits. -/
theorem BitWriter.bits_put {writer : BitWriter} (short : writer.count < 8)
    {value count : Nat} (fits : value < 2 ^ count) (narrow : count ≤ 32) :
    (writer.put value count).bits = writer.bits ++ bitsOf count value ∧
      (writer.put value count).count < 8 := by
  have drained := BitWriter.bits_drain
    { writer with
      acc := (writer.acc <<< count) % 2 ^ 64 ||| value
      count := writer.count + count }
  refine ⟨drained.1.trans ?_, drained.2⟩
  have kept : bitsOf (writer.count + count)
      ((writer.acc <<< count) % 2 ^ 64 ||| value) =
        bitsOf (writer.count + count) (writer.acc <<< count ||| value) := by
    apply bitsOf_congr
    intro place below
    have inside : place < 64 := by omega
    rw [Nat.testBit_or, Nat.testBit_or, Nat.testBit_mod_two_pow]
    simp only [inside, decide_true, Bool.true_and]
  simp only [BitWriter.bits, kept, bitsOf_shiftIn fits, List.append_assoc]

/-- The last byte is filled up with zeros. -/
theorem BitWriter.bits_finish {writer : BitWriter} (short : writer.count < 8) :
    ∃ padding, padding < 8 ∧
      bitsOfBytes writer.finish =
        writer.bits ++ List.replicate padding false := by
  by_cases partly : 0 < writer.count
  · have appended := (BitWriter.bits_put short
      (Nat.two_pow_pos (8 - writer.count)) (by omega)).1
    have whole : (writer.put 0 (8 - writer.count)).count = 0 := by
      have full : 8 ≤ writer.count + (8 - writer.count) := by omega
      have none : writer.count + (8 - writer.count) - 8 = 0 := by omega
      have done : ¬ 8 ≤ 0 := by decide
      rw [BitWriter.put, BitWriter.drain, if_pos full]
      simp only [none]
      rw [BitWriter.drain, if_neg done]
    refine ⟨8 - writer.count, by omega, ?_⟩
    rw [BitWriter.finish, if_pos partly, ← bitsOf_zero, ← appended, BitWriter.bits, whole]
    simp
  · refine ⟨0, by decide, ?_⟩
    have none : writer.count = 0 := by omega
    rw [BitWriter.finish, if_neg partly, BitWriter.bits, none]
    simp

/-! ## Matches -/

/-- The common start of two lists agrees, and lies in both. -/
theorem agrees_of_takeWhile (first second : List UInt8) (bound : Nat) :
    let len := (((first.zip second).take bound).takeWhile fun pair => pair.1 == pair.2).length
    len ≤ bound ∧ len ≤ first.length ∧ len ≤ second.length ∧
      ∀ step, step < len → first[step]? = second[step]? := by
  induction first generalizing second bound with
  | nil => simp
  | cons head rest ih =>
      cases second with
      | nil => simp
      | cons other others =>
          cases bound with
          | zero => simp
          | succ bound =>
              by_cases same : head = other
              · obtain ⟨bounded, inFirst, inSecond, agrees⟩ :=
                  ih others bound
                simp only [List.zip_cons_cons, List.take_succ_cons, same,
                  List.takeWhile_cons, beq_self_eq_true, if_true,
                  List.length_cons]
                refine ⟨by omega, by omega, by omega, ?_⟩
                intro step below
                cases step with
                | zero => rfl
                | succ step => exact agrees step (by omega)
              · have stops : (head == other) = false := by
                  simpa using same
                simp [stops]

/-- A match whose bytes were compared, inside the window. -/
def Verified (input : List UInt8) (position : Nat) (found : Nat × Nat) :
    Prop :=
  found.1 = 0 ∨
    (1 ≤ found.2 ∧ found.2 ≤ lzssWindow ∧ found.2 ≤ position ∧
      found.1 ≤ lzssMaxMatch ∧ position + found.1 ≤ input.length ∧
        ∀ step, step < found.1 → input[position - found.2 + step]? = input[position + step]?)

/-- The chains hold positions below a bound. -/
def Below (bound : Nat) (chains : Chains) : Prop :=
  (∀ key, chains.head key = usizeMax ∨ chains.head key < bound) ∧
    ∀ place, chains.prev place = usizeMax ∨ chains.prev place < bound

theorem below_empty (bound : Nat) :
    Below bound ⟨fun _ => usizeMax, fun _ => usizeMax⟩ :=
  ⟨fun _ => Or.inl rfl, fun _ => Or.inl rfl⟩

theorem Below.mono {bound larger : Nat} {chains : Chains}
    (below : Below bound chains) (grows : bound ≤ larger) :
    Below larger chains := by
  constructor
  · intro key
    exact (below.1 key).imp_right fun small => by omega
  · intro place
    exact (below.2 place).imp_right fun small => by omega

theorem Below.lzssInsert {bound position : Nat} {chains : Chains}
    (below : Below bound chains) (inside : position < bound) (input : List UInt8) :
    Below bound (lzssInsert input position chains) := by
  rw [Create.lzssInsert]
  split
  · constructor
    · intro key
      simp only [Chains.insert]
      split
      · exact Or.inr inside
      · exact below.1 key
    · intro place
      simp only [Chains.insert]
      split
      · exact below.1 _
      · exact below.2 place
  · exact below

theorem verified_longestAlong {input : List UInt8} {chains : Chains}
    {position : Nat} (below : Below position chains) (depth : Nat)
    {candidate : Nat} (inside : candidate = usizeMax ∨ candidate < position)
    {best : Nat × Nat} (verified : Verified input position best) :
    Verified input position
      (longestAlong input chains position depth candidate best) := by
  induction depth generalizing candidate best with
  | zero => exact verified
  | succ depth ih =>
      rw [longestAlong]
      split
      · exact verified
      · rename_i goesOn
        simp only [not_or, Nat.not_lt] at goesOn
        have earlier : candidate < position :=
          inside.resolve_left goesOn.1
        have compared := agrees_of_takeWhile (input.drop candidate)
          (input.drop position) lzssMaxMatch
        dsimp only at compared ⊢
        generalize ((((input.drop candidate).zip (input.drop position)).take
          lzssMaxMatch).takeWhile fun pair => pair.1 == pair.2).length =
            len at compared ⊢
        obtain ⟨bounded, inCandidate, inPosition, agrees⟩ := compared
        have isMatch : Verified input position
            (len, position - candidate) := by
          by_cases none : len = 0
          · exact Or.inl none
          · refine Or.inr ⟨by omega, goesOn.2, by omega, bounded, ?_, ?_⟩
            · rw [List.length_drop] at inPosition
              simp only
              omega
            · intro step under
              have same := agrees step under
              rw [List.getElem?_drop, List.getElem?_drop] at same
              have back : position - (position - candidate) + step =
                  candidate + step := by
                omega
              rw [back]
              exact same
        split
        · split
          · exact isMatch
          · exact ih (below.2 candidate) isMatch
        · exact ih (below.2 candidate) verified

theorem verified_longest {chains : Chains} {position : Nat}
    (below : Below position chains) (input : List UInt8) :
    Verified input position (longest input chains position) := by
  rw [longest]
  split
  · exact Or.inl rfl
  · exact verified_longestAlong below lzssChainDepth (below.1 _) (Or.inl rfl)

/-! ## The packed stream -/

/-- Items that expand to the input from a position on, one byte or more
each. -/
structure Packs (input : List UInt8) (position : Nat)
    (items : List Lzss.Item) : Prop where
  fit : ∀ item ∈ items, item.Fits lzssShape
  expands : Lzss.expand (input.take position).reverse items = input.drop position
  short : items.length ≤ input.length - position

/-- One more item in front. -/
theorem Packs.cons {input : List UInt8} {position len : Nat}
    {item : Lzss.Item} {items : List Lzss.Item} (rest : Packs input (position + len) items)
    (fits : item.Fits lzssShape) (positive : 0 < len) (inside : position + len ≤ input.length)
    (isItem : item.expand (input.take position).reverse = (input.drop position).take len) :
    Packs input position (item :: items) where
  fit := by
    intro other among
    rcases List.mem_cons.mp among with same | later
    · rw [same]
      exact fits
    · exact rest.fit other later
  expands := by
    have past : ((input.drop position).take len).reverse ++
        (input.take position).reverse =
          (input.take (position + len)).reverse := by
      rw [← List.reverse_append, ← List.take_add]
    have split : (input.drop position).take len ++
        input.drop (position + len) = input.drop position := by
      rw [← List.drop_drop, List.take_append_drop]
    rw [Lzss.expand, isItem, past, rest.expands, split]
  short := by
    have later := rest.short
    rw [List.length_cons]
    omega

private theorem below_skipped (input : List UInt8) {position : Nat}
    {chains : Chains} (below : Below (position + 1) chains) (count : Nat) :
    Below (position + 1 + count)
      ((List.range count).foldl
        (fun chains offset => lzssInsert input (position + 1 + offset) chains)
        chains) := by
  induction count with
  | zero => exact below
  | succ count ih =>
      rw [List.range_succ, List.foldl_append, List.foldl_cons, List.foldl_nil]
      exact (ih.mono (by omega)).lzssInsert (by omega) input

private theorem bits_copy {bits : BitWriter} (short : bits.count < 8) {distance len : Nat}
    (fits : (Lzss.Item.copy distance len).Fits lzssShape) :
    (((bits.put 0 1).put (distance - 1) lzssIndexBits).put
        (len - lzssMinMatch) lzssLengthBits).bits =
      bits.bits ++ (Lzss.Item.copy distance len).bits lzssShape ∧
    (((bits.put 0 1).put (distance - 1) lzssIndexBits).put
        (len - lzssMinMatch) lzssLengthBits).count < 8 := by
  obtain ⟨atLeastOne, inWindow, longEnough, notTooLong⟩ := fits
  simp only [lzssShape] at inWindow longEnough notTooLong
  have zero : 0 < 2 ^ 1 := by decide
  have indexFits : distance - 1 < 2 ^ lzssIndexBits := by omega
  have lengthFits : len - lzssMinMatch < 2 ^ lzssLengthBits := by omega
  have flag := BitWriter.bits_put short zero (by decide)
  have index := BitWriter.bits_put flag.2 indexFits (by decide)
  have lengths := BitWriter.bits_put index.2 lengthFits (by decide)
  have isFlag : bitsOf 1 0 = [false] := by decide
  refine ⟨?_, lengths.2⟩
  rw [lengths.1, index.1, flag.1, isFlag]
  simp [Lzss.Item.bits, lzssShape]

private theorem bits_literal {bits : BitWriter} (short : bits.count < 8) (byte : UInt8) :
    ((bits.put 1 1).put byte.toNat 8).bits =
      bits.bits ++ (Lzss.Item.literal byte).bits lzssShape ∧
    ((bits.put 1 1).put byte.toNat 8).count < 8 := by
  have one : 1 < 2 ^ 1 := by decide
  have small : byte.toNat < 2 ^ 8 := byte.toNat_lt
  have flag := BitWriter.bits_put short one (by decide)
  have field := BitWriter.bits_put flag.2 small (by decide)
  have isFlag : bitsOf 1 1 = [true] := by decide
  refine ⟨?_, field.2⟩
  rw [field.1, flag.1, isFlag]
  simp [Lzss.Item.bits]

/-- The loop writes items that expand to the rest of the input. -/
theorem lzssLoop_packs {input : List UInt8} {position : Nat}
    {chains : Chains} {bits : BitWriter} (below : Below position chains)
    (short : bits.count < 8) (within : position ≤ input.length) :
    (lzssLoop input position chains bits).count < 8 ∧
      ∃ items, Packs input position items ∧
        (lzssLoop input position chains bits).bits =
          bits.bits ++ items.flatMap (Lzss.Item.bits lzssShape) := by
  induction left : input.length - position using Nat.strong_induction_on
    generalizing position chains bits with
  | _ left ih =>
      rw [lzssLoop]
      by_cases more : position < input.length
      · rw [if_pos more]
        have verified := verified_longest below input
        rcases isFound : longest input chains position with ⟨len, distance⟩
        rw [isFound] at verified
        dsimp only
        have looked : Below (position + 1)
            (if lookahead len then lzssInsert input position chains
              else chains) := by
          split
          · exact (below.mono (Nat.le_succ _)).lzssInsert (Nat.lt_succ_self _) input
          · exact below.mono (Nat.le_succ _)
        generalize (if lookahead len then lzssInsert input position chains
          else chains) = after at looked ⊢
        generalize (lookahead len && decide
          (len + 1 < (longest input after (position + 1)).1)) = lazier
        by_cases taken : lzssMinMatch ≤ len ∧ lazier = false
        · rw [if_pos taken]
          have three : 3 ≤ len := taken.1
          have positive : len ≠ 0 := by omega
          obtain ⟨atLeastOne, inWindow, inInput, notTooLong, inside,
            agrees⟩ := verified.resolve_left positive
          simp only at atLeastOne inWindow inInput notTooLong inside agrees
          have window : lzssWindow = 1024 := by decide
          have maxMatch : lzssMaxMatch = 66 := by decide
          have first : Below (position + 1)
              (if lookahead len then after
                else lzssInsert input position after) := by
            split
            · exact looked
            · exact looked.lzssInsert (Nat.lt_succ_self _) input
          have skipped := below_skipped input first (len - 1)
          have place : position + 1 + (len - 1) = position + len := by omega
          rw [place] at skipped
          have fits : (Lzss.Item.copy distance len).Fits lzssShape := by
            simp only [Lzss.Item.Fits, lzssShape, lzssIndexBits, lzssLengthBits, lzssMinMatch]
            omega
          have isItem :
              (Lzss.Item.copy distance len).expand
                  (input.take position).reverse =
                (input.drop position).take len :=
            Lzss.copied_of_agrees atLeastOne inInput len inside agrees
          have wrote := bits_copy short fits
          obtain ⟨stillShort, items, packs, isRest⟩ :=
            ih (input.length - (position + len)) (by omega) skipped wrote.2 inside rfl
          refine ⟨stillShort, .copy distance len :: items,
            packs.cons fits (by omega) inside isItem, ?_⟩
          rw [isRest, wrote.1, List.flatMap_cons, List.append_assoc]
        · rw [if_neg taken]
          have next : Below (position + 1)
              (if len < lzssMinMatch then lzssInsert input position after
                else after) := by
            split
            · exact looked.lzssInsert (Nat.lt_succ_self _) input
            · exact looked
          have isItem :
              (Lzss.Item.literal (input.getD position 0)).expand
                  (input.take position).reverse =
                (input.drop position).take 1 := by
            rw [List.drop_eq_getElem_cons more, List.take_succ_cons,
              List.take_zero, List.getD_eq_getElem _ _ more,
              Lzss.Item.expand]
          have wrote := bits_literal short (input.getD position 0)
          obtain ⟨stillShort, items, packs, isRest⟩ :=
            ih (input.length - (position + 1)) (by omega) next wrote.2 more rfl
          refine ⟨stillShort, .literal (input.getD position 0) :: items,
            packs.cons trivial Nat.one_pos more isItem, ?_⟩
          rw [isRest, wrote.1, List.flatMap_cons, List.append_assoc]
      · rw [if_neg more]
        have ended : input.drop position = [] :=
          List.drop_of_length_le (by omega)
        refine ⟨short, [], ⟨fun _ never => absurd never List.not_mem_nil, ?_, ?_⟩, ?_⟩
        · rw [ended, Lzss.expand]
        · exact Nat.zero_le _
        · simp

private theorem lzss_bits (input : List UInt8) :
    ∃ items padding, padding < 8 ∧ Packs input 0 items ∧
      bitsOfBytes (lzss input) =
        items.flatMap (Lzss.Item.bits lzssShape) ++
          List.replicate padding false := by
  have fresh : (⟨[], 0, 0⟩ : BitWriter).count < 8 := by decide
  have looped := lzssLoop_packs (below_empty 0) fresh (Nat.zero_le input.length)
  obtain ⟨short, items, packs, isBits⟩ := looped
  obtain ⟨padding, fewer, finished⟩ := BitWriter.bits_finish short
  refine ⟨items, padding, fewer, packs, ?_⟩
  rw [lzss, finished, isBits]
  simp [BitWriter.bits]

private theorem takeItem_padding {padding : Nat} (fewer : padding < 8) :
    Lzss.takeItem lzssShape (List.replicate padding false) = none := by
  cases padding with
  | zero => rfl
  | succ padding =>
      have width : lzssShape.indexBits + lzssShape.lengthBits = 16 := by
        decide
      have few : (List.replicate padding false).length < 16 := by
        rw [List.length_replicate]
        omega
      rw [List.replicate_succ, Lzss.takeItem, width, if_pos few]

/-- The packed bytes hold items that expand to the input, and padding. -/
theorem takeItems_lzss (input : List UInt8) :
    Lzss.expand []
        (Lzss.takeItems lzssShape (bitsOfBytes (lzss input))).1 = input ∧
      (Lzss.takeItems lzssShape (bitsOfBytes (lzss input))).2.length < 8 :=
  by
  obtain ⟨items, padding, fewer, packs, isBits⟩ := lzss_bits input
  rw [isBits, Lzss.takeItems_bits lzssShape packs.fit (takeItem_padding fewer)]
  have expands := packs.expands
  simp only [List.take_zero, List.reverse_nil, List.drop_zero] at expands
  refine ⟨expands, ?_⟩
  rw [List.length_replicate]
  exact fewer

private theorem length_item_bits (item : Lzss.Item) :
    (item.bits lzssShape).length ≤ 17 := by
  cases item with
  | literal byte => simp [Lzss.Item.bits]
  | copy distance length =>
      simp [Lzss.Item.bits, lzssShape, lzssIndexBits, lzssLengthBits]

private theorem length_items_bits (items : List Lzss.Item) :
    (items.flatMap (Lzss.Item.bits lzssShape)).length ≤
      17 * items.length := by
  induction items with
  | nil => simp
  | cons item rest ih =>
      have here := length_item_bits item
      rw [List.flatMap_cons, List.length_append, List.length_cons]
      omega

theorem length_lzss_le (input : List UInt8) :
    8 * (lzss input).length ≤ 17 * input.length + 7 := by
  obtain ⟨items, padding, fewer, packs, isBits⟩ := lzss_bits input
  have lengths := congrArg List.length isBits
  have bound := length_items_bits items
  have short := packs.short
  rw [length_bitsOfBytes, List.length_append, List.length_replicate] at lengths
  omega

theorem lzss_ne_nil {input : List UInt8} (nonempty : input ≠ []) :
    lzss input ≠ [] := by
  intro empty
  have expands := (takeItems_lzss input).1
  have none : Lzss.takeItem lzssShape [] = none := rfl
  rw [empty, bitsOfBytes_nil, Lzss.takeItems_of_none lzssShape none, Lzss.expand] at expands
  exact nonempty expands.symm

end Ratspeak.Delta.Create
