import Ratspeak.Delta.Create
import Ratspeak.Delta.Meaning
import Ratspeak.Delta.Safety

/-!
# Operations rebuild the target

Whatever matches are found, the operations tile the target and stay inside the
base; cut at block boundaries they still do.  As bytes, they make a decoder
append exactly the part of the target that they tile.
-/

namespace Ratspeak.Delta.Create

open Library

/-! ## Tilings -/

/-- The base bytes of an operation exist. -/
def Op.InBase (baseLen : Nat) : Op → Prop
  | .add baseAt _ len => baseAt + len ≤ baseLen
  | .insert _ _ => True

/-- The operations cover the target from one offset to another, in order and
without a gap, and take nothing from outside the base. -/
def Tiles (baseLen : Nat) : (start finish : Nat) → List Op → Prop
  | start, finish, [] => start = finish
  | start, finish, op :: rest =>
      op.targetAt = start ∧ 0 < op.len ∧ op.InBase baseLen ∧
        Tiles baseLen (start + op.len) finish rest

theorem tiles_append {baseLen start middle finish : Nat}
    {first second : List Op} (before : Tiles baseLen start middle first)
    (after : Tiles baseLen middle finish second) :
    Tiles baseLen start finish (first ++ second) := by
  induction first generalizing start with
  | nil =>
      simp only [Tiles] at before
      rw [before]
      exact after
  | cons op rest ih =>
      obtain ⟨isStart, positive, inBase, others⟩ := before
      exact ⟨isStart, positive, inBase, ih others⟩

theorem tiles_single {baseLen : Nat} {op : Op} (positive : 0 < op.len)
    (inBase : op.InBase baseLen) :
    Tiles baseLen op.targetAt (op.targetAt + op.len) [op] :=
  ⟨rfl, positive, inBase, rfl⟩

theorem Tiles.le {baseLen start finish : Nat} {ops : List Op}
    (tiles : Tiles baseLen start finish ops) : start ≤ finish := by
  induction ops generalizing start with
  | nil => exact Nat.le_of_eq tiles
  | cons op rest ih =>
      have later := ih tiles.2.2.2
      omega

/-! ## Matches stay inside -/

theorem stretch_le (agrees : Nat → Bool) (left step : Nat)
    (score best : Int) (bestLen : Nat) (within : bestLen < step) :
    stretch agrees left step score best bestLen < step + left := by
  induction left generalizing step score best bestLen with
  | zero => simpa [stretch] using within
  | succ left ih =>
      rw [stretch]
      generalize score + (if agrees step then 1 else -1) = next
      split
      · have later := ih (step + 1) next next step
          (Nat.lt_succ_self _)
        omega
      · split
        · omega
        · have later := ih (step + 1) next best bestLen
            (by omega)
          omega

theorem stretchForward_le (base target : List UInt8) (baseAt targetAt : Nat) :
    stretchForward base target baseAt targetAt ≤ base.length - baseAt ∧
      stretchForward base target baseAt targetAt ≤
        target.length - targetAt := by
  have bound := stretch_le
    (fun step =>
      base[baseAt + (step - 1)]? == target[targetAt + (step - 1)]?)
    (min (base.length - baseAt) (target.length - targetAt)) 1 0 0 0
    Nat.one_pos
  rw [stretchForward]
  omega

theorem stretchBackward_le (base target : List UInt8) (baseAt targetAt room : Nat) :
    stretchBackward base target baseAt targetAt room ≤ room ∧
      stretchBackward base target baseAt targetAt room ≤ baseAt := by
  have bound := stretch_le
    (fun step => base[baseAt - step]? == target[targetAt - step]?)
    (min room baseAt) 1 0 0 0 Nat.one_pos
  rw [stretchBackward]
  omega

theorem exactLen_le (base target : List UInt8) (baseAt targetAt : Nat) :
    exactLen base target baseAt targetAt ≤ base.length - baseAt := by
  have taken := (List.takeWhile_sublist
    (fun pair : UInt8 × UInt8 => pair.1 == pair.2)
    (l := (base.drop baseAt).zip (target.drop targetAt))).length_le
  rw [List.length_zip, List.length_drop] at taken
  rw [exactLen]
  omega

/-- A match starts inside the base. -/
def Inside (base : List UInt8) (best : Option (Nat × Nat)) : Prop :=
  ∀ found, best = some found → found.1 < base.length

theorem inside_bestAlong {base target : List UInt8} {chains : Chains}
    {targetAt : Nat} (depth candidate : Nat)
    {best : Option (Nat × Nat)} (inside : Inside base best) :
    Inside base
      (bestAlong base target chains targetAt depth candidate best) := by
  induction depth generalizing candidate best with
  | zero => exact inside
  | succ depth ih =>
      rw [bestAlong]
      split
      · exact inside
      · apply ih
        split
        · rename_i better
          intro found isFound
          have long := better.1
          have bound := exactLen_le base target candidate targetAt
          cases isFound
          simp only [seedMin] at long ⊢
          omega
        · exact inside

theorem inside_bestMatch (base target : List UInt8) (chains : Chains)
    (targetAt : Nat) (continuation : Option Nat) :
    Inside base
      (bestMatch base target chains targetAt continuation) := by
  rw [bestMatch]
  apply inside_bestAlong
  intro found isFound
  split at isFound
  · cases isFound
  · rename_i baseAt isContinued
    dsimp only at isFound
    split at isFound
    · cases isFound
      have kept := (Option.filter_eq_some_iff.mp isContinued).2
      simpa using kept
    · cases isFound

/-! ## The operations that are found -/

private theorem asU32_of_lt {number : Nat} (small : number < 2 ^ 31) :
    asU32 number = number :=
  Nat.mod_eq_of_lt (by omega)

theorem tiles_findLoop {base target : List UInt8}
    (baseFits : base.length < 2 ^ 31) (targetFits : target.length < 2 ^ 31)
    (chains : Chains) {targetAt literalFrom : Nat} {continuation : Option Nat} {ops : List Op}
    (tiles : Tiles base.length 0 literalFrom ops)
    (literal : literalFrom ≤ targetAt) (within : targetAt ≤ target.length) :
    let found := findLoop base target chains targetAt literalFrom continuation ops
    Tiles base.length 0 found.2 found.1 ∧ found.2 ≤ target.length := by
  induction left : target.length - targetAt using Nat.strong_induction_on
    generalizing targetAt literalFrom continuation ops with
  | _ left ih =>
      rw [findLoop]
      by_cases more : targetAt + seed ≤ target.length
      · rw [if_pos more]
        have eight : seed = 8 := rfl
        have inside := inside_bestMatch base target chains targetAt continuation
        cases best : bestMatch base target chains targetAt continuation with
        | none =>
            exact ih (target.length - (targetAt + 1)) (by omega) tiles (by omega) (by omega) rfl
        | some found =>
            obtain ⟨baseAt, len⟩ := found
            have inBase := inside (baseAt, len) best
            have forwards := stretchForward_le base target baseAt targetAt
            have backs := stretchBackward_le base target baseAt targetAt
              (targetAt - literalFrom)
            dsimp only at inBase ⊢
            generalize stretchForward base target baseAt targetAt = stretched at forwards ⊢
            generalize stretchBackward base target baseAt targetAt
              (targetAt - literalFrom) = back at backs ⊢
            have literals : Tiles base.length literalFrom
                (targetAt - back)
                (if literalFrom < targetAt - back then
                  [.insert (asU32 literalFrom) (asU32 (targetAt - back - literalFrom))]
                else []) := by
              split
              · rename_i some
                have first := asU32_of_lt (show literalFrom < 2 ^ 31 by omega)
                have length := asU32_of_lt
                  (show targetAt - back - literalFrom < 2 ^ 31 by omega)
                rw [first, length]
                refine ⟨rfl, ?_, trivial, ?_⟩
                · simp only [Op.len]
                  omega
                · simp only [Op.len, Tiles]
                  omega
              · simp only [Tiles]
                omega
            have added : Tiles base.length (targetAt - back)
                (targetAt + max stretched 1)
                [.add (asU32 (baseAt - back)) (asU32 (targetAt - back))
                  (asU32 (back + max stretched 1))] := by
              have fromBase := asU32_of_lt (show baseAt - back < 2 ^ 31 by omega)
              have fromTarget := asU32_of_lt (show targetAt - back < 2 ^ 31 by omega)
              have length := asU32_of_lt (show back + max stretched 1 < 2 ^ 31 by omega)
              rw [fromBase, fromTarget, length]
              refine ⟨rfl, ?_, ?_, ?_⟩
              · simp only [Op.len]
                omega
              · simp only [Op.InBase]
                omega
              · simp only [Op.len, Tiles]
                omega
            exact ih
              (target.length - (targetAt + max stretched 1)) (by omega)
              (tiles_append (tiles_append tiles literals) added)
              (Nat.le_refl _) (by omega) rfl
      · rw [if_neg more]
        exact ⟨tiles, by simp only; omega⟩

/-- The operations cover the whole target. -/
theorem tiles_findOps {base target : List UInt8} (baseFits : base.length < 2 ^ 31)
    (targetFits : target.length < 2 ^ 31) :
    Tiles base.length 0 target.length (findOps base target) := by
  have found :
      let found := findLoop base target (seedChains base) 0 0 none []
      Tiles base.length 0 found.2 found.1 ∧ found.2 ≤ target.length :=
    tiles_findLoop baseFits targetFits (seedChains base) rfl (Nat.le_refl 0) (Nat.zero_le _)
  rw [findOps]
  dsimp only at found ⊢
  split
  · rename_i rest
    have first := asU32_of_lt
      (show (findLoop base target (seedChains base) 0 0 none []).2 < 2 ^ 31
        by omega)
    have length := asU32_of_lt
      (show target.length -
          (findLoop base target (seedChains base) 0 0 none []).2 < 2 ^ 31
        by omega)
    rw [first, length]
    apply tiles_append found.1
    refine ⟨rfl, ?_, trivial, ?_⟩
    · simp only [Op.len]
      omega
    · simp only [Op.len, Tiles]
      omega
  · have whole : (findLoop base target (seedChains base) 0 0 none []).2 =
        target.length := by
      omega
    rw [← whole]
    exact found.1

/-! ## Cutting at block boundaries -/

/-- The operation lies inside one block. -/
def Op.InBlock (op : Op) : Prop :=
  op.targetAt + op.len ≤ boundary op.targetAt

@[simp]
theorem Op.targetAt_cut_fst (head : Nat) (op : Op) :
    (op.cut head).1.targetAt = op.targetAt := by
  cases op with
  | add baseAt targetAt len => rfl
  | insert targetAt len => rfl

@[simp]
theorem Op.len_cut_fst (head : Nat) (op : Op) :
    (op.cut head).1.len = head := by
  cases op with
  | add baseAt targetAt len => rfl
  | insert targetAt len => rfl

@[simp]
theorem Op.targetAt_cut_snd (head : Nat) (op : Op) :
    (op.cut head).2.targetAt = op.targetAt + head := by
  cases op with
  | add baseAt targetAt len => rfl
  | insert targetAt len => rfl

theorem Op.inBase_cut {baseLen head : Nat} {op : Op}
    (within : head ≤ op.len) (inBase : op.InBase baseLen) :
    (op.cut head).1.InBase baseLen ∧ (op.cut head).2.InBase baseLen := by
  cases op with
  | add baseAt targetAt len =>
      simp only [Op.cut, Op.InBase, Op.len] at *
      omega
  | insert targetAt len => exact ⟨trivial, trivial⟩

theorem tiles_splitOp {baseLen : Nat} {op : Op} (positive : 0 < op.len)
    (inBase : op.InBase baseLen) :
    Tiles baseLen op.targetAt (op.targetAt + op.len) (splitOp op) ∧
      ∀ piece ∈ splitOp op, piece.InBlock := by
  induction op using splitOp.induct with
  | case1 op inside =>
      rw [splitOp, if_pos inside]
      refine ⟨tiles_single positive inBase, ?_⟩
      intro piece among
      rw [List.mem_singleton.mp among]
      exact inside
  | case2 op crosses pieces ih =>
      rw [splitOp, if_neg crosses]
      have later := lt_boundary op.targetAt
      have head : boundary op.targetAt - op.targetAt ≤ op.len := by omega
      have cutInBase := Op.inBase_cut head inBase
      have rest := ih
        (by
          show 0 < (op.cut _).2.len
          rw [Op.len_cut]
          omega)
        cutInBase.2
      have restAt : op.targetAt + (boundary op.targetAt - op.targetAt) =
          boundary op.targetAt := by
        omega
      have finish : boundary op.targetAt +
          (op.len - (boundary op.targetAt - op.targetAt)) =
            op.targetAt + op.len := by
        omega
      simp only [pieces, Op.targetAt_cut_snd, Op.len_cut, restAt, finish] at rest
      refine ⟨⟨Op.targetAt_cut_fst _ _, ?_, cutInBase.1, ?_⟩, ?_⟩
      · rw [Op.len_cut_fst]
        omega
      · rw [Op.len_cut_fst, restAt]
        exact rest.1
      · intro piece among
        rcases List.mem_cons.mp among with first | other
        · rw [first, Op.InBlock, Op.targetAt_cut_fst, Op.len_cut_fst, restAt]
        · exact rest.2 piece other

/-- Cut operations cover the same part of the target. -/
theorem tiles_splitAtBlocks {baseLen start finish : Nat} {ops : List Op}
    (tiles : Tiles baseLen start finish ops) :
    Tiles baseLen start finish (splitAtBlocks ops) ∧
      ∀ piece ∈ splitAtBlocks ops, piece.InBlock := by
  induction ops generalizing start with
  | nil => exact ⟨tiles, fun piece among => absurd among (List.not_mem_nil)⟩
  | cons op rest ih =>
      obtain ⟨isStart, positive, inBase, others⟩ := tiles
      have first := tiles_splitOp positive inBase
      have second := ih others
      rw [splitAtBlocks, List.flatMap_cons]
      rw [isStart] at first
      refine ⟨tiles_append first.1 second.1, ?_⟩
      intro piece among
      rcases List.mem_append.mp among with ofFirst | ofRest
      · exact first.2 piece ofFirst
      · exact second.2 piece ofRest

/-! ## Numbers are read back -/

theorem grow_group {low shift group : Nat} {byte : UInt8}
    (isGroup : (byte &&& 0x7f).toNat = group) (lowFits : low < 2 ^ shift)
    (fits : low + group * 2 ^ shift < 2 ^ 32) (short : shift ≤ 28)
    (top : shift = 28 → byte &&& 0x70 = 0) :
    grow low shift byte = some (low + group * 2 ^ shift) := by
  have allowed : ¬ (28 < shift ∨ (shift = 28 ∧ byte &&& 0x70 ≠ 0)) := by
    rintro (long | ⟨isTop, beyond⟩)
    · omega
    · exact beyond (top isTop)
  have groupFits : group <<< shift < 2 ^ 32 := by
    rw [Nat.shiftLeft_eq]
    omega
  have joined := Nat.shiftLeft_add_eq_or_of_lt lowFits group
  rw [grow, if_neg allowed, isGroup, Nat.mod_eq_of_lt groupFits,
    Nat.or_comm, ← joined, Nat.shiftLeft_eq, Nat.add_comm]

private theorem continuing_bits :
    ∀ number < 256,
      ((UInt8.ofNat number ||| 0x80) &&& 0x7f).toNat = number % 128 ∧
        (UInt8.ofNat number ||| 0x80) &&& 0x80 ≠ 0 := by
  decide +kernel

private theorem last_bits :
    ∀ number < 128,
      (UInt8.ofNat number &&& 0x7f).toNat = number ∧
        UInt8.ofNat number &&& 0x80 = 0 ∧
          (number < 16 → UInt8.ofNat number &&& 0x70 = 0) := by
  decide +kernel

private theorem continuing_byte (number : Nat) :
    ((UInt8.ofNat number ||| 0x80) &&& 0x7f).toNat = number % 128 ∧
      (UInt8.ofNat number ||| 0x80) &&& 0x80 ≠ 0 := by
  have low := continuing_bits (number % 256) (Nat.mod_lt _ (by decide))
  have same : UInt8.ofNat (number % 256) = UInt8.ofNat number := by
    apply UInt8.toNat_inj.mp
    simp
  have group : number % 256 % 128 = number % 128 := by omega
  rw [same, group] at low
  exact low

/-- A field of an operation that is read group by group takes the number that
was written. -/
theorem run_leb128 {base : List UInt8} {blockEnd : Nat} {work : Work}
    {field : Nat → Nat → Delta.Op} {finish : Nat → Option Work} (reads : ∀ value shift byte,
      Work.step base blockEnd { work with op := field value shift } byte =
        match grow value shift byte with
        | none => none
        | some value =>
            if byte &&& 0x80 ≠ 0 then
              some { work with op := field value (shift + 7) }
            else finish value)
    {low shift number : Nat} (lowFits : low < 2 ^ shift) (groups : shift % 7 = 0)
    (fits : low + number * 2 ^ shift < 2 ^ 32) (short : shift ≤ 28) (rest : List UInt8) :
    Work.run base blockEnd { work with op := field low shift }
        (leb128 number ++ rest) =
      (finish (low + number * 2 ^ shift)).bind fun reached =>
        reached.run base blockEnd rest := by
  induction number using leb128.induct generalizing low shift with
  | case1 number long ih =>
      obtain ⟨isGroup, continues⟩ := continuing_byte number
      have seven : number >>> 7 = number / 128 := by
        rw [Nat.shiftRight_eq_div_pow]
      have parts : number = number % 128 + 128 * (number / 128) :=
        (Nat.mod_add_div number 128).symm
      have power : 2 ^ (shift + 7) = 128 * 2 ^ shift := by
        rw [Nat.pow_add, Nat.mul_comm]
      have sum : low + number * 2 ^ shift =
          low + number % 128 * 2 ^ shift +
            number / 128 * 2 ^ (shift + 7) := by
        rw [power]
        conv_lhs => rw [parts]
        ring
      have shorter : shift < 28 := by
        by_contra isTop
        have top : shift = 28 := by omega
        rw [top] at fits
        omega
      have grows := grow_group isGroup lowFits (by omega) short
        (fun isTop => absurd isTop (by omega))
      have step := reads low shift (UInt8.ofNat number ||| 0x80)
      rw [grows] at step
      dsimp only at step
      rw [if_pos continues] at step
      have bound : number % 128 * 2 ^ shift ≤ 127 * 2 ^ shift :=
        Nat.mul_le_mul_right _ (by omega)
      have later := ih
        (show low + number % 128 * 2 ^ shift < 2 ^ (shift + 7) by omega)
        (by omega) (by rw [seven]; omega) (by omega)
      rw [leb128, if_pos long, List.cons_append, Work.run, step]
      dsimp only
      rw [later, seven, ← sum]
  | case2 number small =>
      obtain ⟨isGroup, ends, narrow⟩ := last_bits number (by omega)
      have grows := grow_group isGroup lowFits fits short
        (fun isTop => narrow (by rw [isTop] at fits; omega))
      have step := reads low shift (UInt8.ofNat number)
      rw [grows] at step
      dsimp only at step
      rw [if_neg (not_not.mpr ends)] at step
      rw [leb128, if_neg small, List.singleton_append, Work.run, step]
      cases finish (low + number * 2 ^ shift) with
      | none => rfl
      | some reached => rfl

theorem zigzag_eq {seek : Int} (least : -(2 ^ 31) ≤ seek) (most : seek < 2 ^ 31) :
    zigzag seek =
      if 0 ≤ seek then (2 * seek).toNat else (-(2 * seek) - 1).toNat := by
  cases seek with
  | ofNat forward =>
      rw [Int.ofNat_eq_natCast] at most ⊢
      have sign : forward >>> 63 = 0 := by
        rw [Nat.shiftRight_eq_div_pow]
        omega
      have same : Int.xor (2 * (forward : Int))
          ((forward : Int) >>> (63 : Int)) = ((2 * forward ^^^ forward >>> 63 : Nat) : Int) :=
        rfl
      have forwards : 0 ≤ (forward : Int) := Int.natCast_nonneg _
      rw [zigzag, same, sign, Nat.xor_zero, if_pos forwards]
      omega
  | negSucc back =>
      have sign : back >>> 63 = 0 := by
        rw [Nat.shiftRight_eq_div_pow]
        omega
      have doubled : 2 * Int.negSucc back = Int.negSucc (2 * back + 1) := by
        omega
      have same : Int.xor (Int.negSucc (2 * back + 1))
          (Int.negSucc back >>> (63 : Int)) = ((2 * back + 1 ^^^ back >>> 63 : Nat) : Int) :=
        rfl
      have backwards : ¬ 0 ≤ Int.negSucc back := by omega
      rw [zigzag, doubled, same, sign, Nat.xor_zero, if_neg backwards]
      omega

theorem zigzag_lt {seek : Int} (least : -(2 ^ 31) ≤ seek)
    (most : seek < 2 ^ 31) : zigzag seek < 2 ^ 32 := by
  rw [zigzag_eq least most]
  split
  · omega
  · omega

theorem unzigzag_zigzag {seek : Int} (least : -(2 ^ 31) ≤ seek)
    (most : seek < 2 ^ 31) : unzigzag (zigzag seek) = seek := by
  rw [unzigzag_eq, zigzag_eq least most]
  split
  · split
    · omega
    · omega
  · split
    · omega
    · omega

theorem length_leb128 {digits number : Nat} (fits : number < 128 ^ (digits + 1)) :
    (leb128 number).length ≤ digits + 1 := by
  induction digits generalizing number with
  | zero =>
      rw [leb128, if_neg (by omega)]
      exact Nat.le_refl _
  | succ digits ih =>
      rw [leb128]
      split
      · have fewer : number >>> 7 < 128 ^ (digits + 1) := by
          rw [Nat.shiftRight_eq_div_pow]
          apply Nat.div_lt_of_lt_mul
          rw [Nat.pow_succ] at fits
          omega
        have later := ih fewer
        rw [List.length_cons]
        omega
      · rw [List.length_singleton]
        omega

theorem length_leb128_le {number : Nat} (fits : number < 2 ^ 32) :
    (leb128 number).length ≤ 5 :=
  length_leb128 (Nat.lt_trans fits (by decide))

/-! ## Operations are carried out -/

theorem take_append_take_drop (bytes : List UInt8) (start len : Nat) :
    bytes.take start ++ (bytes.drop start).take len =
      bytes.take (start + len) := by
  rw [List.take_add]

/-- Literal bytes are appended. -/
theorem run_insert (base : List UInt8) (blockEnd cursor : Nat)
    (made bytes : List UInt8) (some : bytes ≠ []) :
    Work.run base blockEnd ⟨.insert bytes.length, cursor, made⟩ bytes =
      .some ⟨.tag, cursor, made ++ bytes⟩ := by
  induction bytes generalizing made with
  | nil => exact absurd rfl some
  | cons byte rest ih =>
      rw [Work.run]
      simp only [Work.step, List.length_cons]
      cases rest with
      | nil => rfl
      | cons next others =>
          have more : ¬ (next :: others).length + 1 = 1 := by simp
          rw [if_neg more, Nat.add_sub_cancel, ih _ (List.cons_ne_nil _ _), List.append_assoc]
          rfl

theorem step_add {base target : List UInt8} (blockEnd left : Nat)
    {cursor targetAt : Nat} (made : List UInt8)
    (inBase : cursor < base.length) (inTarget : targetAt < target.length) :
    Work.step base blockEnd ⟨.add left, cursor, made⟩
        (target.getD targetAt 0 - base.getD cursor 0) =
      some ⟨if left = 1 then .tag else .add (left - 1), cursor + 1,
        made ++ [target[targetAt]]⟩ := by
  have original : base[cursor]? = some base[cursor] :=
    List.getElem?_eq_getElem inBase
  have restored : base[cursor] + (target[targetAt] - base[cursor]) =
      target[targetAt] := by
    rw [UInt8.add_comm]
    exact UInt8.sub_add_cancel _ _
  rw [List.getD_eq_getElem _ _ inBase, List.getD_eq_getElem _ _ inTarget]
  simp only [Work.step, original, restored]

/-- Differences turn base bytes into target bytes. -/
theorem run_add {base target : List UInt8} (blockEnd : Nat)
    {cursor targetAt len : Nat} (made : List UInt8) (positive : 0 < len)
    (inBase : cursor + len ≤ base.length) (inTarget : targetAt + len ≤ target.length) :
    Work.run base blockEnd ⟨.add len, cursor, made⟩
        ((List.range len).map fun index =>
          target.getD (targetAt + index) 0 - base.getD (cursor + index) 0) =
      some ⟨.tag, cursor + len,
        made ++ (target.drop targetAt).take len⟩ := by
  induction len generalizing cursor targetAt made with
  | zero => exact absurd positive (Nat.lt_irrefl 0)
  | succ len ih =>
      have first := step_add blockEnd (len + 1) made
        (show cursor < base.length by omega)
        (show targetAt < target.length by omega)
      have taken : (target.drop targetAt).take (len + 1) =
          target[targetAt] :: (target.drop (targetAt + 1)).take len := by
        rw [List.drop_eq_getElem_cons (by omega), List.take_succ_cons]
      rw [List.range_succ_eq_map, List.map_cons, List.map_map, Work.run]
      simp only [Nat.add_zero, first, taken]
      by_cases more : 0 < len
      · have notLast : len + 1 ≠ 1 := by omega
        have later := ih (made ++ [target[targetAt]]) more
          (show cursor + 1 + len ≤ base.length by omega)
          (show targetAt + 1 + len ≤ target.length by omega)
        rw [if_neg notLast, Nat.add_sub_cancel]
        simp only [Function.comp_def, Nat.succ_eq_add_one]
        simp only [Nat.add_assoc, Nat.add_comm 1] at later ⊢
        rw [later, List.append_assoc]
        rfl
      · have last : len = 0 := by omega
        subst last
        simp [Work.run]

theorem read_len (base : List UInt8) {blockEnd cursor len : Nat}
    {made : List UInt8} (add : Bool) (positive : 0 < len)
    (fits : len < 2 ^ 32) (inBlock : made.length + len ≤ blockEnd) (rest : List UInt8) :
    Work.run base blockEnd ⟨.len add 0 0, cursor, made⟩
        (leb128 len ++ rest) =
      Work.run base blockEnd
        ⟨if add then .seek len 0 0 else .insert len, cursor, made⟩ rest := by
  let work : Work := ⟨.tag, cursor, made⟩
  let finish : Nat → Option Work := fun value =>
    if value = 0 ∨ blockEnd < made.length + value then none
    else if add then some ⟨.seek value 0 0, cursor, made⟩
    else some ⟨.insert value, cursor, made⟩
  have reads : ∀ value shift byte,
      Work.step base blockEnd { work with op := .len add value shift } byte =
        match grow value shift byte with
        | none => none
        | some value =>
            if byte &&& 0x80 ≠ 0 then
              some { work with op := .len add value (shift + 7) }
            else finish value :=
    fun _ _ _ => rfl
  have read := run_leb128 reads (show 0 < 2 ^ 0 by decide) rfl
    (show 0 + len * 2 ^ 0 < 2 ^ 32 by omega) (by omega) rest
  have accepted : ¬ (len = 0 ∨ blockEnd < made.length + len) := by omega
  rw [Nat.pow_zero, Nat.mul_one, Nat.zero_add] at read
  simp only [work, finish, if_neg accepted] at read
  rw [read]
  cases add with
  | false => rfl
  | true => rfl

theorem read_seek {base : List UInt8} (blockEnd : Nat)
    {cursor baseAt len : Nat} (made : List UInt8)
    (baseFits : base.length < 2 ^ 31) (cursorFits : cursor ≤ base.length)
    (inBase : baseAt + len ≤ base.length) (rest : List UInt8) :
    Work.run base blockEnd ⟨.seek len 0 0, cursor, made⟩
        (leb128 (zigzag ((baseAt : Int) - cursor)) ++ rest) =
      Work.run base blockEnd ⟨.add len, baseAt, made⟩ rest := by
  let work : Work := ⟨.tag, cursor, made⟩
  let finish : Nat → Option Work := fun value =>
    if (cursor : Int) + unzigzag value < 0 ∨
        (base.length : Int) < (cursor : Int) + unzigzag value + len then
      none
    else
      some ⟨.add len, ((cursor : Int) + unzigzag value).toNat, made⟩
  have reads : ∀ value shift byte,
      Work.step base blockEnd { work with op := .seek len value shift } byte =
        match grow value shift byte with
        | none => none
        | some value =>
            if byte &&& 0x80 ≠ 0 then
              some { work with op := .seek len value (shift + 7) }
            else finish value :=
    fun _ _ _ => rfl
  have least : -(2 ^ 31) ≤ (baseAt : Int) - cursor := by omega
  have most : (baseAt : Int) - cursor < 2 ^ 31 := by omega
  have fits := zigzag_lt least most
  have read := run_leb128 reads (show 0 < 2 ^ 0 by decide) rfl
    (show 0 + zigzag ((baseAt : Int) - cursor) * 2 ^ 0 < 2 ^ 32 by omega)
    (by omega) rest
  have moved : (cursor : Int) + ((baseAt : Int) - cursor) = baseAt := by
    omega
  have accepted : ¬ ((baseAt : Int) < 0 ∨
      (base.length : Int) < (baseAt : Int) + len) := by
    omega
  rw [Nat.pow_zero, Nat.mul_one, Nat.zero_add] at read
  simp only [work, finish, unzigzag_zigzag least most, moved,
    if_neg accepted, Int.toNat_natCast] at read
  exact read

/-- The operations of a block make the part of the target that they cover. -/
theorem run_encodeFrom {base target : List UInt8} {blockEnd : Nat}
    {cursor start finish : Nat} {ops : List Op}
    (baseFits : base.length < 2 ^ 31) (targetFits : target.length < 2 ^ 31)
    (cursorFits : cursor ≤ base.length) (tiles : Tiles base.length start finish ops)
    (inTarget : finish ≤ target.length) (inBlock : finish ≤ blockEnd) :
    ∃ reached, Work.run base blockEnd ⟨.tag, cursor, target.take start⟩
      (encodeFrom base target cursor ops) =
        some ⟨.tag, reached, target.take finish⟩ := by
  induction ops generalizing start cursor with
  | nil =>
      simp only [Tiles] at tiles
      rw [tiles]
      exact ⟨cursor, rfl⟩
  | cons op rest ih =>
      obtain ⟨isStart, positive, inBase, others⟩ := tiles
      have further := others.le
      have madeLength : (target.take start).length = start := by
        rw [List.length_take]
        omega
      have joined := take_append_take_drop target start op.len
      cases op with
      | add baseAt targetAt len =>
          simp only [Op.targetAt, Op.len, Op.InBase] at *
          subst isStart
          obtain ⟨reached, runs⟩ := ih inBase others
          refine ⟨reached, ?_⟩
          rw [encodeFrom, Work.run]
          simp only [Work.step, if_pos, List.append_assoc]
          rw [read_len base true positive (by omega)
            (by rw [madeLength]; omega), if_pos rfl,
            read_seek blockEnd _ baseFits cursorFits inBase,
            Work.run_append,
            run_add blockEnd _ positive inBase (by omega), joined,
            Option.bind_some, runs]
      | insert targetAt len =>
          simp only [Op.targetAt, Op.len] at *
          subst isStart
          obtain ⟨reached, runs⟩ := ih cursorFits others
          have literal : ((target.drop targetAt).take len).length = len := by
            rw [List.length_take, List.length_drop]
            omega
          have someLiteral : (target.drop targetAt).take len ≠ [] :=
            List.ne_nil_of_length_pos (by omega)
          have inserted := run_insert base blockEnd cursor
            (target.take targetAt) ((target.drop targetAt).take len)
            someLiteral
          rw [literal, joined] at inserted
          have notAdd : opInsert ≠ opAdd := by decide
          refine ⟨reached, ?_⟩
          rw [encodeFrom, Work.run]
          simp only [Work.step, if_neg notAdd, if_pos, List.append_assoc]
          rw [read_len base false positive (by omega)
            (by rw [madeLength]; omega)]
          simp only [Bool.false_eq_true, if_false]
          rw [Work.run_append, inserted, Option.bind_some, runs]

/-! ## Sizes -/

theorem length_encodeFrom {base target : List UInt8} {cursor : Nat}
    {start finish : Nat} {ops : List Op}
    (baseFits : base.length < 2 ^ 31) (targetFits : target.length < 2 ^ 31)
    (cursorFits : cursor ≤ base.length) (tiles : Tiles base.length start finish ops)
    (inTarget : finish ≤ target.length) :
    (encodeFrom base target cursor ops).length ≤ 12 * (finish - start) := by
  induction ops generalizing start cursor with
  | nil => exact Nat.zero_le _
  | cons op rest ih =>
      obtain ⟨isStart, positive, inBase, others⟩ := tiles
      have further := others.le
      cases op with
      | add baseAt targetAt len =>
          simp only [Op.targetAt, Op.len, Op.InBase] at *
          have later := ih inBase others
          have lenDigits := length_leb128_le (show len < 2 ^ 32 by omega)
          have seekDigits := length_leb128_le
            (zigzag_lt (show -(2 ^ 31) ≤ (baseAt : Int) - cursor by omega)
              (show (baseAt : Int) - cursor < 2 ^ 31 by omega))
          simp only [encodeFrom, List.length_cons, List.length_append,
            List.length_map, List.length_range]
          omega
      | insert targetAt len =>
          simp only [Op.targetAt, Op.len] at *
          have later := ih cursorFits others
          have lenDigits := length_leb128_le (show len < 2 ^ 32 by omega)
          simp only [encodeFrom, List.length_cons, List.length_append,
            List.length_take, List.length_drop]
          omega

theorem encodeFrom_ne_nil {base target : List UInt8} {cursor : Int}
    {ops : List Op} (some : ops ≠ []) :
    encodeFrom base target cursor ops ≠ [] := by
  cases ops with
  | nil => exact absurd rfl some
  | cons op rest =>
      cases op with
      | add baseAt targetAt len => exact List.cons_ne_nil _ _
      | insert targetAt len => exact List.cons_ne_nil _ _

theorem baseOffset_le {baseLen start finish : Nat} {ops : List Op}
    (tiles : Tiles baseLen start finish ops) :
    baseOffset ops ≤ baseLen := by
  induction ops generalizing start with
  | nil => exact Nat.zero_le _
  | cons op rest ih =>
      obtain ⟨-, -, inBase, others⟩ := tiles
      cases op with
      | add baseAt targetAt len =>
          simp only [baseOffset, List.findSome?_cons, Option.getD_some, Op.InBase] at *
          omega
      | insert targetAt len =>
          have later := ih others
          simpa only [baseOffset, List.findSome?_cons] using later

end Ratspeak.Delta.Create
