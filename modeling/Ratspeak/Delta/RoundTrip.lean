import Ratspeak.Delta.Operations
import Ratspeak.Delta.Packing
import Ratspeak.Delta.Resume

/-!
# Round trip

A created patch rebuilds its target.  Every block holds the operations of one
block of the target, its packing is undone, and carrying out the operations
makes exactly that block; so a decoder that reads the patch makes the target,
and an applier makes what the decoder makes, however the patch is cut.
-/

namespace Ratspeak.Delta.Create

open Library

/-! ## One packed block -/

/-- Packed bytes that are read one by one do what their items do at once. -/
theorem run_body {base : List UInt8} {target blockEnd : Nat}
    {packed past : List UInt8} {waiting : List Bool} {work reached : Work}
    (some : packed ≠ []) (runs : work.run base blockEnd
      (Lzss.expand past
        (Lzss.takeItems lzssShape (waiting ++ bitsOfBytes packed)).1) = .some reached)
    (full : reached.made.length = blockEnd) (between : reached.op = .tag)
    (short : (Lzss.takeItems lzssShape (waiting ++ bitsOfBytes packed)).2.length < 8) :
    Decoder.run base target
        (.body packed.length blockEnd work past waiting) packed =
      .some (.after target reached.made) := by
  induction packed generalizing work past waiting with
  | nil => exact absurd rfl some
  | cons byte rest ih =>
      have pieces := Lzss.takeItems_append lzssShape
        (waiting ++ bitsOf 8 byte.toNat) (bitsOfBytes rest)
      rw [bitsOfBytes_cons, ← List.append_assoc, pieces] at runs short
      rw [Lzss.expand_append, Work.run_append] at runs
      generalize isItems : Lzss.takeItems lzssShape
        (waiting ++ bitsOf 8 byte.toNat) = items at runs short
      cases first : work.run base blockEnd (Lzss.expand past items.1) with
      | none =>
          rw [first] at runs
          cases runs
      | some middle =>
          rw [first, Option.bind_some] at runs
          rw [Decoder.run]
          simp only [Decoder.step, isItems, first, List.length_cons, Nat.add_sub_cancel]
          cases rest with
          | nil =>
              have left := Lzss.takeItem_left lzssShape (waiting ++ bitsOf 8 byte.toNat)
              rw [isItems] at left
              rw [bitsOfBytes_nil, List.append_nil,
                Lzss.takeItems_of_none lzssShape left] at runs short
              simp only [Lzss.expand, Work.run, Option.some.injEq] at runs
              subst runs
              simp [full, between, short, Decoder.run]
          | cons next others =>
              have notLast : (next :: others).length + 1 ≠ 1 := by simp
              rw [if_pos notLast]
              exact ih (List.cons_ne_nil _ _) runs short

theorem run_blockHeader {base : List UInt8} (target : Nat)
    (made : List UInt8) {seen bytes : List UInt8} (some : bytes ≠ [])
    (whole : (seen ++ bytes).length = deltaBlockHeaderLen)
    (packed : ofLittleEndian ((seen ++ bytes).take 4) ≠ 0)
    (inBase : ofLittleEndian ((seen ++ bytes).drop 4) ≤ base.length) :
    Decoder.run base target (.blockHeader made seen) bytes =
      .some (.body (ofLittleEndian ((seen ++ bytes).take 4))
        (min (made.length + deltaBlockOut) target)
        ⟨.tag, ofLittleEndian ((seen ++ bytes).drop 4), made⟩ [] []) := by
  induction bytes generalizing seen with
  | nil => exact absurd rfl some
  | cons byte rest ih =>
      have joined : seen ++ byte :: rest = seen ++ [byte] ++ rest := by
        simp
      rw [joined] at whole packed inBase ⊢
      rw [Decoder.run]
      simp only [Decoder.step]
      cases rest with
      | nil =>
          rw [List.append_nil] at whole packed inBase ⊢
          have read : ¬ (seen ++ [byte]).length < deltaBlockHeaderLen := by
            omega
          have accepted : ¬ (ofLittleEndian ((seen ++ [byte]).take 4) = 0 ∨
              base.length < ofLittleEndian ((seen ++ [byte]).drop 4)) := by
            omega
          rw [if_neg read, if_neg accepted]
          rfl
      | cons next others =>
          have partly : (seen ++ [byte]).length < deltaBlockHeaderLen := by
            rw [← whole]
            simp only [List.length_append, List.length_cons]
            omega
          rw [if_pos partly]
          exact ih (List.cons_ne_nil _ _) whole packed inBase

theorem read_blockHeader {base : List UInt8} (target : Nat)
    (made : List UInt8) {packedLen cursor : Nat} (positive : 0 < packedLen)
    (packedFits : packedLen < 256 ^ 4) (cursorFits : cursor < 256 ^ 4)
    (inBase : cursor ≤ base.length) :
    Decoder.run base target (.blockHeader made [])
        (littleEndian 4 packedLen ++ littleEndian 4 cursor) =
      some (.body packedLen (min (made.length + deltaBlockOut) target)
        ⟨.tag, cursor, made⟩ [] []) := by
  have four : (littleEndian 4 packedLen).length = 4 :=
    length_littleEndian 4 packedLen
  have isPacked : ofLittleEndian
      (([] ++ (littleEndian 4 packedLen ++ littleEndian 4 cursor)).take 4) =
        packedLen := by
    rw [List.nil_append, List.take_left' four, ofLittleEndian_littleEndian packedFits]
  have isCursor : ofLittleEndian
      (([] ++ (littleEndian 4 packedLen ++ littleEndian 4 cursor)).drop 4) =
        cursor := by
    rw [List.nil_append, List.drop_left' four, ofLittleEndian_littleEndian cursorFits]
  have length : ([] ++ (littleEndian 4 packedLen ++
      littleEndian 4 cursor)).length = deltaBlockHeaderLen := by
    simp [deltaBlockHeaderLen]
  have some : littleEndian 4 packedLen ++ littleEndian 4 cursor ≠ [] := by
    apply List.ne_nil_of_length_pos
    simp
  have header := run_blockHeader target made some length
    (by rw [isPacked]; omega) (by rw [isCursor]; exact inBase)
  rw [isPacked, isCursor] at header
  exact header

theorem run_header {base : List UInt8} {target : Nat}
    {seen bytes : List UInt8} (some : bytes ≠ [])
    (whole : (seen ++ bytes).length = deltaHeaderLen)
    (announces : Announces target (seen ++ bytes)) :
    Decoder.run base target (.header seen) bytes =
      .some (.blockHeader [] []) := by
  induction bytes generalizing seen with
  | nil => exact absurd rfl some
  | cons byte rest ih =>
      have joined : seen ++ byte :: rest = seen ++ [byte] ++ rest := by
        simp
      rw [joined] at whole announces
      rw [Decoder.run]
      simp only [Decoder.step]
      cases rest with
      | nil =>
          rw [List.append_nil] at whole announces
          have read : ¬ (seen ++ [byte]).length < deltaHeaderLen := by
            omega
          rw [if_neg read, if_pos announces]
          rfl
      | cons next others =>
          have partly : (seen ++ [byte]).length < deltaHeaderLen := by
            rw [← whole]
            simp only [List.length_append, List.length_cons]
            omega
          rw [if_pos partly]
          exact ih (List.cons_ne_nil _ _) whole announces

/-! ## One block of the target -/

/-- The operations of one block, and those after it. -/
theorem tiles_group {baseLen middle total block : Nat} {ops : List Op}
    (tiles : Tiles baseLen middle total ops) (inBlocks : ∀ op ∈ ops, op.InBlock)
    (above : block * deltaBlockOut < middle) (below : middle ≤ (block + 1) * deltaBlockOut) :
    let same := fun op : Op => decide (op.targetAt / deltaBlockOut = block)
    let finish := min ((block + 1) * deltaBlockOut) total
    Tiles baseLen middle finish (ops.takeWhile same) ∧
      Tiles baseLen finish total (ops.dropWhile same) := by
  have positive : 0 < deltaBlockOut := by decide
  induction ops generalizing middle with
  | nil =>
      simp only [Tiles] at tiles
      simp only [List.takeWhile_nil, List.dropWhile_nil, Tiles]
      omega
  | cons op rest ih =>
      have further := tiles.le
      obtain ⟨isStart, some, inBase, others⟩ := tiles
      have later := others.le
      by_cases inside : middle < (block + 1) * deltaBlockOut
      · have sameBlock : middle / deltaBlockOut = block :=
          Nat.div_eq_of_lt_le (Nat.le_of_lt above) inside
        have ends := inBlocks op List.mem_cons_self
        rw [Op.InBlock, isStart, boundary, sameBlock] at ends
        have tail := ih others
          (fun other among => inBlocks other (List.mem_cons_of_mem _ among))
          (by omega) ends
        simp only [List.takeWhile_cons, List.dropWhile_cons, isStart,
          sameBlock, decide_true, if_true]
        exact ⟨⟨isStart, some, inBase, tail.1⟩, tail.2⟩
      · have atEnd : middle = (block + 1) * deltaBlockOut := by omega
        have nextBlock : middle / deltaBlockOut ≠ block := by
          rw [atEnd, Nat.mul_div_cancel _ positive]
          omega
        simp only [List.takeWhile_cons, List.dropWhile_cons, isStart,
          nextBlock, decide_false, Bool.false_eq_true, if_false, Tiles]
        have finish : min ((block + 1) * deltaBlockOut) total = middle := by
          omega
        rw [finish]
        exact ⟨rfl, rfl, some, inBase, others⟩

/-- A written block makes the part of the target that it covers. -/
theorem run_block {base target : List UInt8} {start : Nat} {ops : List Op}
    (baseFits : base.length < 2 ^ 31) (targetFits : target.length < 2 ^ 31)
    (some : ops ≠ []) (tiles : Tiles base.length start
      (min (start + deltaBlockOut) target.length) ops)
    (rest : List UInt8) :
    Decoder.run base target.length (.blockHeader (target.take start) [])
        (littleEndian 4 (lzss (encodeOps base target ops).2).length ++
          littleEndian 4 (encodeOps base target ops).1 ++
          lzss (encodeOps base target ops).2 ++ rest) =
      Decoder.run base target.length
        (.after target.length (target.take (min (start + deltaBlockOut) target.length)))
        rest := by
  have offset := baseOffset_le tiles
  have further := tiles.le
  have size := length_encodeFrom baseFits targetFits offset tiles (Nat.min_le_right _ _)
  obtain ⟨reached, runs⟩ := run_encodeFrom baseFits targetFits offset tiles
    (Nat.min_le_right _ _) (Nat.le_refl _)
  have someBytes : encodeFrom base target (baseOffset ops) ops ≠ [] :=
    encodeFrom_ne_nil some
  simp only [encodeOps]
  generalize encodeFrom base target (baseOffset ops) ops = encoded at *
  generalize baseOffset ops = cursor at *
  have packedSize := length_lzss_le encoded
  have somePacked := lzss_ne_nil someBytes
  have unpacked := takeItems_lzss encoded
  generalize lzss encoded = packed at *
  have block : deltaBlockOut = 65536 := rfl
  have packedPositive := List.length_pos_iff.mpr somePacked
  have header := read_blockHeader target.length (target.take start)
    packedPositive (show packed.length < 256 ^ 4 by omega)
    (show cursor < 256 ^ 4 by omega) offset
  have madeLength : (target.take start).length = start := by
    rw [List.length_take]
    omega
  rw [madeLength] at header
  have finishLength :
      (target.take (min (start + deltaBlockOut) target.length)).length =
        min (start + deltaBlockOut) target.length := by
    rw [List.length_take]
    omega
  have body : Decoder.run base target.length
      (.body packed.length (min (start + deltaBlockOut) target.length)
        ⟨.tag, cursor, target.take start⟩ [] []) packed = _ :=
    run_body somePacked
      (by rw [List.nil_append, unpacked.1]; exact runs) finishLength rfl
      (by rw [List.nil_append]; exact unpacked.2)
  rw [Decoder.run_append, Decoder.run_append, header, Option.bind_some, body, Option.bind_some]

/-! ## The whole patch -/

theorem run_createBlocks {base target : List UInt8} {start : Nat}
    {ops : List Op} (baseFits : base.length < 2 ^ 31) (targetFits : target.length < 2 ^ 31)
    (tiles : Tiles base.length start target.length ops) (inBlocks : ∀ op ∈ ops, op.InBlock)
    (aligned : start = target.length ∨ start % deltaBlockOut = 0) :
    Decoder.run base target.length
        (.after target.length (target.take start))
        (createBlocks base target ops) = some (.done target) := by
  have positive : 0 < deltaBlockOut := by decide
  induction ops using createBlocks.induct base target generalizing start with
  | case1 =>
      simp only [Tiles] at tiles
      subst tiles
      simp [createBlocks, Decoder.run, Decoder.after]
  | case2 op ops same =>
      rename_i ih
      have further := tiles.le
      obtain ⟨isStart, some, inBase, others⟩ := tiles
      subst isStart
      have later := others.le
      have isAligned : op.targetAt % deltaBlockOut = 0 := by omega
      have division := Nat.div_add_mod op.targetAt deltaBlockOut
      have inBlock := inBlocks op List.mem_cons_self
      have starts : op.targetAt / deltaBlockOut * deltaBlockOut =
          op.targetAt := by
        rw [Nat.mul_comm]
        omega
      have ends : (op.targetAt / deltaBlockOut + 1) * deltaBlockOut =
          op.targetAt + deltaBlockOut := by
        rw [Nat.add_mul, Nat.one_mul, starts]
      rw [Op.InBlock, boundary, ends] at inBlock
      have group := tiles_group others
        (fun other among => inBlocks other (List.mem_cons_of_mem _ among))
        (show op.targetAt / deltaBlockOut * deltaBlockOut < op.targetAt + op.len by omega)
        (by rw [ends]; exact inBlock)
      rw [ends] at group
      have notEnd : ¬ op.targetAt = target.length := by omega
      have startLength : (target.take op.targetAt).length = op.targetAt := by
        rw [List.length_take]
        omega
      have nextAligned : min (op.targetAt + deltaBlockOut) target.length =
            target.length ∨
          min (op.targetAt + deltaBlockOut) target.length %
            deltaBlockOut = 0 := by
        rcases Nat.le_total (op.targetAt + deltaBlockOut) target.length with
          inside | outside
        · rw [Nat.min_eq_left inside, Nat.add_mod_right]
          exact Or.inr isAligned
        · exact Or.inl (Nat.min_eq_right outside)
      have rest := ih group.2
        (fun other among => inBlocks other
          (List.mem_cons_of_mem _ ((List.dropWhile_sublist _).subset among)))
        nextAligned
      have first := run_block baseFits targetFits (List.cons_ne_nil _ _)
        (show Tiles base.length op.targetAt
            (min (op.targetAt + deltaBlockOut) target.length)
            (op :: ops.takeWhile same) from
          ⟨rfl, some, inBase, group.1⟩)
        (createBlocks base target (ops.dropWhile same))
      rw [createBlocks, ← rest, ← first, Decoder.after, startLength, if_neg notEnd]

/-- A decoder that reads a created patch makes the target. -/
theorem run_create {base target : List UInt8}
    (baseFits : base.length < 2 ^ 31) (targetFits : target.length < 2 ^ 31)
    (some : target ≠ []) :
    Decoder.run base target.length (.header []) (create base target) =
      .some (.done target) := by
  have found := tiles_splitAtBlocks (tiles_findOps baseFits targetFits)
  have blocks := run_createBlocks baseFits targetFits found.1 found.2 (Or.inr rfl)
  have positive := List.length_pos_iff.mpr some
  have notEmpty : ¬ ([] : List UInt8).length = target.length := by
    rw [List.length_nil]
    omega
  have isTarget : ofLittleEndian (littleEndian 4 target.length) =
      target.length :=
    ofLittleEndian_littleEndian (by omega)
  have announces : Announces target.length
      ([] ++ (deltaMagic ++ [deltaVersion, 0, 0, 0] ++
        littleEndian 4 target.length)) := by
    refine ⟨rfl, rfl, rfl, ?_, by omega⟩
    exact isTarget
  have header : Decoder.run base target.length (.header [])
      (deltaMagic ++ [deltaVersion, 0, 0, 0] ++
        littleEndian 4 target.length) = .some (.blockHeader [] []) :=
    run_header (List.cons_ne_nil _ _) rfl announces
  rw [create, Decoder.run_append, header, Option.bind_some, ← blocks,
    List.take_zero, Decoder.after, if_neg notEmpty]

/-- Whatever a decoder makes of a whole patch, an applier writes, however the
patch is cut. -/
theorem feed_of_run_done {Store Error : Type} {io : DeltaIo Store Error}
    {base made : List UInt8} (serves : io.Serves base) {target : Nat}
    (targetFits : target < u32Max) (baseFits : base.length < 2 ^ 32)
    {pieces : List (List UInt8)}
    (runs : Decoder.run base target (.header []) pieces.flatten = .some (.done made))
    (store : Store) :
    let fed := feed io pieces none (.start (.new target base.length) store)
    fed.stopped = none ∧ fed.session.applier.complete = true ∧
      written fed.session.log = made := by
  have starts : Waiting ⟨target, base.length, 0⟩
      (.start (.new target base.length) store) :=
    waiting_begin targetFits baseFits none store
  have held := through_refines serves.toFaithful rfl (.header []) 0 none
    pieces.flatten _ ⟨starts, refines_new base target store⟩
  have agrees := feed_eq_push io pieces none (.start (.new target base.length) store)
  rw [push] at agrees
  rcases ran : (Program.through (pushByte io) none pieces.flatten).exec
      (.start (.new target base.length) store) with ⟨result, reached⟩
  rw [ran] at held agrees
  cases result with
  | error halt =>
      have stopped := held serves
      rw [runs] at stopped
      cases stopped
  | ok reported =>
      obtain ⟨final, isRun, ⟨waits, refines⟩, _⟩ := held
      have whole := length_of_run_done (fun _ never => by cases never) runs
      rw [runs, Option.some.injEq] at isRun
      subst isRun
      have isDone : reached.applier.stage = .done := refines.2.1
      obtain ⟨final, isMade, isWritten⟩ := written_of_done waits refines
        isDone
        (fun final same => by
          cases same
          exact whole)
      cases isMade
      dsimp only at agrees ⊢
      rw [agrees]
      refine ⟨rfl, ?_, isWritten⟩
      simp only [DeltaApplier.complete, isDone, decide_true]

/-- An applier for a created patch, however it is cut, takes every piece,
ends complete and has written exactly the target. -/
theorem feed_create {Store Error : Type} (io : DeltaIo Store Error)
    (store : Store) (base target : List UInt8)
    (baseFits : base.length < 2 ^ 31) (targetFits : target.length < 2 ^ 31)
    (some : target ≠ []) (serves : io.Serves base) (pieces : List (List UInt8))
    (isPatch : pieces.flatten = create base target) :
    let fed := feed io pieces none (.start (.new target.length base.length) store)
    fed.stopped = none ∧ fed.session.applier.complete = true ∧
      written fed.session.log = target := by
  have maximum : u32Max = 4294967295 := rfl
  have runs := run_create baseFits targetFits some
  rw [← isPatch] at runs
  exact feed_of_run_done serves (by omega) (by omega) runs store

theorem feed_create_replacement :
    let base : List UInt8 := List.replicate 40 7
    let target : List UInt8 := List.replicate 20 7 ++ [1, 2, 3]
    let patch := create base target
    let fed := feed (vecIo base) [patch.take 13, [], patch.drop 13] none
      (.start (.new target.length base.length) [])
    fed.stopped = none ∧ fed.session.applier.complete = true ∧
      written fed.session.log = target := by
  intro base target patch
  have cut : [patch.take 13, [], patch.drop 13].flatten =
      create base target := by
    simp [patch]
  have baseLength : base.length = 40 := rfl
  have targetLength : target.length = 23 := rfl
  have some : target ≠ [] := List.ne_nil_of_length_pos (by omega)
  exact feed_create (vecIo base) [] base target (by omega) (by omega) some
    (vecIo_serves base) _ cut

end Ratspeak.Delta.Create
