import Ratspeak.Delta.Applier

/-!
# Hostile patches

Whatever bytes a patch consists of, the applier never faults, reads the base
image only inside its bounds, and never offers more output than the target
has.  `Packed` is what holds between any two operations of a block, `Waiting`
what holds between any two bytes of a patch, and `Journal` what a failure at
any point leaves true of the log.
-/

namespace Ratspeak.Delta

open Library

/-! ## Reading the log -/

/-- The bytes that the adapter accepted. -/
def written (log : List Event) : List UInt8 :=
  log.flatMap fun event =>
    match event with
    | .write bytes true => bytes
    | _ => []

/-- The bytes that the adapter was handed, accepted or not. -/
def offered (log : List Event) : List UInt8 :=
  log.flatMap fun event =>
    match event with
    | .write bytes _ => bytes
    | _ => []

/-- The accepted bytes of each ended block, and those since the last end. -/
def cutBlocks (log : List Event) : List (List UInt8) × List UInt8 :=
  log.foldl
    (fun cut event =>
      match event with
      | .write bytes true => (cut.1, cut.2 ++ bytes)
      | .block _ => (cut.1 ++ [cut.2], [])
      | _ => cut)
    ([], [])

/-- The blocks that ended, each with its bytes. -/
def endedBlocks (log : List Event) : List (List UInt8) :=
  (cutBlocks log).1

/-- The bytes accepted since the last end of a block. -/
def openBytes (log : List Event) : List UInt8 :=
  (cutBlocks log).2

@[simp]
theorem written_append (first second : List Event) :
    written (first ++ second) = written first ++ written second := by
  simp [written]

@[simp]
theorem offered_append (first second : List Event) :
    offered (first ++ second) = offered first ++ offered second := by
  simp [offered]

private theorem cutBlocks_concat (log : List Event) (event : Event) :
    cutBlocks (log ++ [event]) =
      match event with
      | .write bytes true => ((cutBlocks log).1, (cutBlocks log).2 ++ bytes)
      | .block _ => ((cutBlocks log).1 ++ [(cutBlocks log).2], [])
      | _ => cutBlocks log := by
  rw [cutBlocks, List.foldl_append]
  rfl

@[simp]
theorem endedBlocks_read (log : List Event) (offset length : Nat) :
    endedBlocks (log ++ [.read offset length]) = endedBlocks log := by
  rw [endedBlocks, cutBlocks_concat]
  rfl

@[simp]
theorem endedBlocks_write (log : List Event) (bytes : List UInt8) (accepted : Bool) :
    endedBlocks (log ++ [.write bytes accepted]) = endedBlocks log := by
  rw [endedBlocks, cutBlocks_concat]
  cases accepted with
  | true => rfl
  | false => rfl

@[simp]
theorem endedBlocks_block (log : List Event) (checkpoint : Checkpoint) :
    endedBlocks (log ++ [.block checkpoint]) =
      endedBlocks log ++ [openBytes log] := by
  rw [endedBlocks, cutBlocks_concat]
  rfl

@[simp]
theorem openBytes_read (log : List Event) (offset length : Nat) :
    openBytes (log ++ [.read offset length]) = openBytes log := by
  rw [openBytes, cutBlocks_concat]
  rfl

@[simp]
theorem openBytes_write (log : List Event) (bytes : List UInt8) :
    openBytes (log ++ [.write bytes true]) = openBytes log ++ bytes := by
  rw [openBytes, cutBlocks_concat]
  rfl

@[simp]
theorem openBytes_block (log : List Event) (checkpoint : Checkpoint) :
    openBytes (log ++ [.block checkpoint]) = [] := by
  rw [openBytes, cutBlocks_concat]

/-! ## Invariants -/

/-- A decoder for a target and a base of these lengths, whose output starts
at an offset of the target. -/
structure Frame where
  target : Nat
  base : Nat
  start : Nat

/-- Where a block ends that starts after a number of whole blocks. -/
def Frame.blockEnd (frame : Frame) (blocks : Nat) : Nat :=
  min (frame.start + deltaBlockOut * (blocks + 1)) frame.target

/-- What holds of a session even after a failure. -/
structure Journal (frame : Frame) (session : Session Store) : Prop where
  reads : ∀ offset length, .read offset length ∈ session.log → offset + length ≤ frame.base
  offers : frame.start + (offered session.log).length ≤ max frame.start frame.target
  blocks : ∀ block ∈ endedBlocks session.log,
    (session.applier.stage ≠ .done ∨
      block ∈ (endedBlocks session.log).dropLast) →
      block.length = deltaBlockOut
  completes : session.applier.stage = .done →
    (written session.log).length = frame.target - frame.start

/-- A step that stopped did so with an error of the decoder. -/
def Refused (frame : Frame) {Store Error : Type} (halt : Halt Error)
    (session : Session Store) : Prop :=
  (∃ error, halt = .error error) ∧ Journal frame session

/-- What holds of a session whose output is not complete, whatever it
waits for. -/
structure Steady (frame : Frame) (session : Session Store) : Prop where
  reads : ∀ offset length, .read offset length ∈ session.log → offset + length ≤ frame.base
  blocks : ∀ block ∈ endedBlocks session.log, block.length = deltaBlockOut
  targetFits : frame.target < u32Max
  baseFits : frame.base < 2 ^ 32
  targetLen : session.applier.targetLen = frame.target
  baseLen : session.applier.baseLen = frame.base
  accepted : offered session.log = written session.log
  counted : frame.start + (written session.log).length +
    session.applier.out.length = session.applier.output
  opened : frame.start +
      deltaBlockOut * (endedBlocks session.log).length +
        (openBytes session.log).length + session.applier.out.length =
    session.applier.output
  within : session.applier.output ≤ frame.target
  cached : session.applier.cacheStart + session.applier.cache.length ≤ frame.base

/-- Where a session is inside a block. -/
structure Place where
  blockEnd : Nat
  bitCount : Nat
  cursor : Nat
  output : Nat

/-- What holds of a session inside a block, apart from the operation. -/
structure InBlock (frame : Frame) (place : Place)
    (session : Session Store) : Prop where
  steady : Steady frame session
  unfinished : session.applier.stage ≠ .done
  isEnd : place.blockEnd = frame.blockEnd (endedBlocks session.log).length
  isBitCount : session.applier.bitCount = place.bitCount
  isCursor : session.applier.cursor = place.cursor
  isOutput : session.applier.output = place.output
  inBase : place.cursor ≤ frame.base
  inBlock : place.output ≤ place.blockEnd
  inWindow : session.applier.windowPos < lzssWindow

/-- The same between two operations, when the output buffer has room. -/
structure Packed (frame : Frame) (place : Place)
    (session : Session Store) : Prop extends
    InBlock frame place session where
  buffered : session.applier.out.length < staging

/-- What the numbers of an operation are bounded by. -/
def Op.Fits (frame : Frame) (place : Place) (op : Op) : Prop :=
  match op with
  | .tag => True
  | .len _ value shift => value < 2 ^ 32 ∧ shift ≤ 35
  | .seek length value shift =>
      0 < length ∧ place.output + length ≤ place.blockEnd ∧ value < 2 ^ 32 ∧ shift ≤ 35
  | .add left =>
      0 < left ∧ place.output + left ≤ place.blockEnd ∧ place.cursor + left ≤ frame.base
  | .insert left => 0 < left ∧ place.output + left ≤ place.blockEnd

theorem Steady.journal {frame : Frame} {session : Session Store}
    (steady : Steady frame session) (unfinished : session.applier.stage ≠ .done) :
    Journal frame session where
  reads := steady.reads
  offers := by
    have counted := steady.counted
    have within := steady.within
    rw [steady.accepted]
    omega
  blocks := fun block among _ => steady.blocks block among
  completes := fun done => absurd done unfinished

theorem InBlock.journal {frame : Frame} {place : Place}
    {session : Session Store} (inside : InBlock frame place session) :
    Journal frame session :=
  inside.steady.journal inside.unfinished

theorem InBlock.endFits {frame : Frame} {place : Place}
    {session : Session Store} (inside : InBlock frame place session) :
    place.blockEnd < u32Max := by
  have small := inside.steady.targetFits
  rw [inside.isEnd, Frame.blockEnd]
  omega

/-! ## Machine integers in range -/

theorem add32_of_lt {first second : Nat} (fits : first + second < 2 ^ 32) :
    (add32 first second : Step Store Error Nat) = pure (first + second) :=
  if_pos fits

theorem subtract_of_le {first second : Nat} (fits : second ≤ first) :
    (subtract first second : Step Store Error Nat) = pure (first - second) :=
  if_pos fits

theorem shiftRight32_of_lt {number count : Nat} (fits : count < 32) :
    (shiftRight32 number count : Step Store Error Nat) = pure (number >>> count) :=
  if_pos fits

theorem shiftLeft32_of_lt {number count : Nat} (fits : count < 32) :
    (shiftLeft32 number count : Step Store Error Nat) = pure ((number <<< count) % 2 ^ 32) :=
  if_pos fits

theorem i64_of_bounds {number : Int} (fits : -2 ^ 63 ≤ number ∧ number < 2 ^ 63) :
    (i64 number : Step Store Error Int) = pure number :=
  if_pos fits

/-! ## Output and base -/

section Operations

variable {frame : Frame} {place : Place} (io : DeltaIo Store Error)

private theorem refused_of_inBlock {session : Session Store}
    (inside : InBlock frame place session) (error : DeltaError Error) :
    Refused frame (.error error) session :=
  ⟨⟨error, rfl⟩, inside.journal⟩

/-- An accepted write empties the buffer into the log. -/
private theorem wrote_of_inBlock {session : Session Store}
    (inside : InBlock frame place session) (store : Store) :
    Packed frame place
      { applier := { session.applier with out := [] }
        store := store
        log := session.log ++ [.write session.applier.out true] } := by
  have steady := inside.steady
  have isWritten : written [.write session.applier.out true] =
      session.applier.out := by
    simp [written]
  have isOffered : offered [.write session.applier.out true] =
      session.applier.out := by
    simp [offered]
  have counted := steady.counted
  have opened := steady.opened
  constructor
  · constructor
    · constructor
      · intro offset length among
        simp only [List.mem_append, List.mem_singleton, reduceCtorEq, or_false] at among
        exact steady.reads offset length among
      · simpa using steady.blocks
      · exact steady.targetFits
      · exact steady.baseFits
      · exact steady.targetLen
      · exact steady.baseLen
      · simp only [offered_append, written_append, steady.accepted, isWritten, isOffered]
      · simp only [written_append, isWritten, List.length_append,
          List.length_nil]
        omega
      · simp only [endedBlocks_write, openBytes_write, List.length_append,
          List.length_nil]
        omega
      · exact steady.within
      · exact steady.cached
    · exact inside.unfinished
    · simpa using inside.isEnd
    · exact inside.isBitCount
    · exact inside.isCursor
    · exact inside.isOutput
    · exact inside.inBase
    · exact inside.inBlock
    · exact inside.inWindow
  · simp [staging]

/-- A write that was not accepted is only in the log. -/
private theorem rejected_of_inBlock {session : Session Store}
    (inside : InBlock frame place session) (store : Store) :
    Journal frame
      { applier := session.applier
        store := store
        log := session.log ++ [.write session.applier.out false] } := by
  have steady := inside.steady
  have isOffered : offered [.write session.applier.out false] =
      session.applier.out := by
    simp [offered]
  have counted := steady.counted
  have within := steady.within
  constructor
  · intro offset length among
    simp only [List.mem_append, List.mem_singleton, reduceCtorEq, or_false] at among
    exact steady.reads offset length among
  · simp only [offered_append, isOffered, List.length_append,
      steady.accepted]
    omega
  · intro block among _
    rw [endedBlocks_write] at among
    exact steady.blocks block among
  · intro done
    exact False.elim <| inside.unfinished done

/-- A read inside the base keeps everything. -/
private theorem read_of_inBlock {session : Session Store}
    (inside : InBlock frame place session) (store : Store)
    {offset length : Nat} (bounded : offset + length ≤ frame.base) :
    InBlock frame place
      { applier := session.applier
        store := store
        log := session.log ++ [.read offset length] } := by
  have steady := inside.steady
  constructor
  · constructor
    · intro otherOffset otherLength among
      simp only [List.mem_append, List.mem_singleton, Event.read.injEq] at among
      rcases among with before | ⟨sameOffset, sameLength⟩
      · exact steady.reads otherOffset otherLength before
      · rw [sameOffset, sameLength]
        exact bounded
    · simpa using steady.blocks
    · exact steady.targetFits
    · exact steady.baseFits
    · exact steady.targetLen
    · exact steady.baseLen
    · simpa [offered, written] using steady.accepted
    · simpa [written] using steady.counted
    · simpa using steady.opened
    · exact steady.within
    · exact steady.cached
  · exact inside.unfinished
  · simpa using inside.isEnd
  · exact inside.isBitCount
  · exact inside.isCursor
  · exact inside.isOutput
  · exact inside.inBase
  · exact inside.inBlock
  · exact inside.inWindow

theorem flush_meets :
    Program.Meets (InBlock frame place) (flush io)
      (fun _ session =>
        Packed frame place session ∧ session.applier.out = [])
      (Refused frame) := by
  intro session inside
  by_cases empty : session.applier.out = []
  · have buffered : session.applier.out.length < staging := by
      simp [empty, staging]
    have ran : (flush io).exec session = (.ok (), session) := by
      simp [flush, Program.exec_bind, empty]
    rw [ran]
    exact ⟨⟨inside, buffered⟩, empty⟩
  · rcases wrote : io.write session.store session.applier.out with
      ⟨result, store⟩
    cases result with
    | ok value =>
        simp only [flush, writeOut, note, change, Program.exec_bind,
          Program.exec_get, ne_eq, empty, not_false_eq_true, if_true, wrote,
          Program.exec_modify, and_true]
        exact wrote_of_inBlock inside store
    | error error =>
        simp only [flush, writeOut, note, fail, Program.exec_bind,
          Program.exec_get, ne_eq, empty, not_false_eq_true, if_true, wrote,
          Program.exec_modify, Program.exec_throw]
        exact ⟨⟨_, rfl⟩, rejected_of_inBlock inside store⟩

/-- The session after one more byte of output, before any write. -/
def Session.emitted (session : Session Store) (byte : UInt8) :
    Session Store :=
  { session with
    applier :=
      { session.applier with
        out := session.applier.out ++ [byte]
        output := session.applier.output + 1 } }

theorem InBlock.emitted {session : Session Store} (inside : InBlock frame place session)
    (room : place.output < place.blockEnd) (byte : UInt8) :
    InBlock frame { place with output := place.output + 1 }
      (session.emitted byte) := by
  have steady := inside.steady
  have counted := steady.counted
  have opened := steady.opened
  have isOutput := inside.isOutput
  have blockEnd := inside.isEnd
  have inTarget : session.applier.output + 1 ≤ frame.target := by
    simp only [Frame.blockEnd] at blockEnd
    omega
  constructor
  · constructor
    · exact steady.reads
    · exact steady.blocks
    · exact steady.targetFits
    · exact steady.baseFits
    · exact steady.targetLen
    · exact steady.baseLen
    · exact steady.accepted
    · simp only [Session.emitted, List.length_append,
        List.length_singleton]
      omega
    · simp only [Session.emitted, List.length_append,
        List.length_singleton]
      omega
    · exact inTarget
    · exact steady.cached
  · exact inside.unfinished
  · exact inside.isEnd
  · exact inside.isBitCount
  · exact inside.isCursor
  · simp only [Session.emitted, isOutput]
  · exact inside.inBase
  · exact room
  · exact inside.inWindow

/-- What emitting a byte does: a write follows if the buffer is full. -/
theorem emit_exec {session : Session Store} (packed : Packed frame place session)
    (room : place.output < place.blockEnd) (byte : UInt8) :
    (emit io byte).exec session =
      if session.applier.out.length + 1 = staging then
        (flush io).exec (session.emitted byte)
      else (.ok (), session.emitted byte) := by
  have short := packed.endFits
  have isOutput := packed.isOutput
  have noOverflow : session.applier.output + 1 < 2 ^ 32 := by
    simp only [u32Max] at short
    omega
  simp only [emit, change, Program.exec_bind, Program.exec_get,
    packed.buffered, if_true, Program.exec_modify,
    add32_of_lt noOverflow, Program.exec_pure]
  split
  · rfl
  · rfl

theorem emit_meets (byte : UInt8) (room : place.output < place.blockEnd) :
    Program.Meets (Packed frame place) (emit io byte)
      (fun _ session =>
        Packed frame { place with output := place.output + 1 } session)
      (Refused frame) := by
  intro session packed
  have grown := packed.toInBlock.emitted room byte
  rw [emit_exec io packed room byte]
  by_cases full : session.applier.out.length + 1 = staging
  · have flushed := flush_meets io _ grown
    rw [if_pos full]
    rcases ran : (flush io).exec (session.emitted byte) with
      ⟨result, reached⟩
    rw [ran] at flushed
    cases result with
    | ok value => exact flushed.1
    | error halt => exact flushed
  · rw [if_neg full]
    have buffered := packed.buffered
    have stillRoom : (session.emitted byte).applier.out.length <
        staging := by
      simp only [Session.emitted, List.length_append, List.length_singleton]
      omega
    exact ⟨grown, stillRoom⟩

/-- A base byte at a cursor inside the base is read inside the base. -/
theorem baseByte_meets (inside : place.cursor < frame.base) :
    Program.Meets (Packed frame place) (baseByte io)
      (fun _ session => Packed frame place session) (Refused frame) := by
  intro session packed
  have steady := packed.steady
  have isCursor := packed.isCursor
  have baseLen := steady.baseLen
  have baseFits := steady.baseFits
  have cached := steady.cached
  by_cases miss : session.applier.cursor < session.applier.cacheStart ∨
      session.applier.cache.length ≤
        (session.applier.cursor + 2 ^ 32 - session.applier.cacheStart) % 2 ^ 32
  · have noUnderflow : session.applier.cursor ≤ session.applier.baseLen := by
      omega
    have bounded : session.applier.cursor +
        min (session.applier.baseLen - session.applier.cursor) staging ≤
          frame.base := by
      omega
    have nonempty : 0 <
        min (session.applier.baseLen - session.applier.cursor) staging := by
      simp only [staging]
      omega
    rcases read : io.readBase session.store session.applier.cursor
        (min (session.applier.baseLen - session.applier.cursor) staging) with
      ⟨result, store⟩
    cases result with
    | error error =>
        simp only [baseByte, note, fail, Program.exec_bind, Program.exec_get,
          if_pos miss, subtract_of_le noUnderflow, Program.exec_pure,
          Program.exec_modify, read, Program.exec_throw]
        exact refused_of_inBlock (read_of_inBlock packed.toInBlock store bounded) (.base error)
    | ok bytes =>
        have present : 0 < bytes.val.length := by
          rw [bytes.property]
          exact nonempty
        simp only [baseByte, note, change, Program.exec_bind,
          Program.exec_get, if_pos miss, subtract_of_le noUnderflow,
          Program.exec_pure, Program.exec_modify, read,
          List.getElem?_eq_getElem present]
        have after := read_of_inBlock packed.toInBlock store bounded
        have filled : session.applier.cursor + bytes.val.length ≤
            frame.base := by
          rw [bytes.property]
          exact bounded
        exact
          { after with
            steady := { after.steady with cached := filled }
            buffered := packed.buffered }
  · have hit : session.applier.cacheStart ≤ session.applier.cursor ∧
        (session.applier.cursor + 2 ^ 32 - session.applier.cacheStart) %
            2 ^ 32 <
          session.applier.cache.length := by
      omega
    simp only [baseByte, Program.exec_bind, Program.exec_get, if_neg miss,
      List.getElem?_eq_getElem hit.2, Program.exec_pure]
    exact packed

/-! ## Operations -/

private theorem or_lt {first second : Nat} (firstFits : first < 2 ^ 32)
    (secondFits : second < 2 ^ 32) : first ||| second < 2 ^ 32 :=
  Nat.or_lt_two_pow firstFits secondFits

/-- A number grows by one group or is refused; it always fits 32 bits. -/
theorem leb128_meets {value : Nat} (shift : Nat) (byte : UInt8) (fits : value < 2 ^ 32) :
    Program.Meets (Packed frame place)
      (leb128 value shift byte : Step Store Error Nat)
      (fun grown session =>
        Packed frame place session ∧ grown < 2 ^ 32 ∧ shift ≤ 28)
      (Refused frame) := by
  intro session packed
  by_cases long : 28 < shift ∨ (shift = 28 ∧ byte &&& 0x70 ≠ 0)
  · simp only [leb128, if_pos long, fail, Program.exec_throw]
    exact refused_of_inBlock packed.toInBlock .malformed
  · have noLoss : shift < 32 := by omega
    simp only [leb128, if_neg long, Program.exec_bind,
      shiftLeft32_of_lt noLoss, Program.exec_pure]
    refine ⟨packed, or_lt fits (Nat.mod_lt _ (by decide)), ?_⟩
    omega

theorem unzigzag_eq (value : Nat) :
    unzigzag value =
      if value % 2 = 0 then ((value / 2 : Nat) : Int)
      else -((value / 2 : Nat) : Int) - 1 := by
  have half : value >>> 1 = value / 2 := by
    rw [Nat.shiftRight_eq_div_pow]
  have bit : value &&& 1 = value % 2 := Nat.and_one_is_mod value
  rw [unzigzag, half, bit]
  rcases Nat.mod_two_eq_zero_or_one value with even | odd
  · rw [even, if_pos rfl]
    have same : Int.xor ((value / 2 : Nat) : Int) (-((0 : Nat) : Int)) =
        ((value / 2 ^^^ 0 : Nat) : Int) :=
      rfl
    rw [same, Nat.xor_zero]
  · rw [odd, if_neg (by decide)]
    have flipped : Int.xor ((value / 2 : Nat) : Int) (-((1 : Nat) : Int)) =
        Int.negSucc (value / 2 ^^^ 0) :=
      rfl
    rw [flipped, Nat.xor_zero]
    omega

theorem unzigzag_bounds {value : Nat} (fits : value < 2 ^ 32) :
    -2 ^ 31 ≤ unzigzag value ∧ unzigzag value < 2 ^ 31 := by
  rw [unzigzag_eq]
  split
  · omega
  · omega

/-- After `nextOp`: the next opcode fits where the session has come to. -/
def Moved (frame : Frame) (place : Place) (op : Op) (session : Session Store) : Prop :=
  ∃ reached : Place,
    reached.blockEnd = place.blockEnd ∧ reached.bitCount = place.bitCount ∧
      Packed frame reached session ∧ op.Fits frame reached

/-- The byte that names an instruction. -/
private theorem nextOp_tag_meets (byte : UInt8) :
    Program.Meets
      (fun session => Packed frame place session ∧ session.applier.op = .tag)
      (nextOp io byte place.blockEnd) (Moved frame place) (Refused frame) := by
  apply Program.meets_get_bind
  intro session starts
  obtain ⟨packed, isOp⟩ := starts
  have malformed := refused_of_inBlock packed.toInBlock (.malformed : DeltaError Error)
  simp only [isOp]
  by_cases isAdd : byte = opAdd
  · rw [if_pos isAdd]
    apply Program.meets_pure
    intro state same
    subst same
    exact ⟨place, rfl, rfl, packed, by decide, by decide⟩
  · rw [if_neg isAdd]
    by_cases isInsert : byte = opInsert
    · rw [if_pos isInsert]
      apply Program.meets_pure
      intro state same
      subst same
      exact ⟨place, rfl, rfl, packed, by decide, by decide⟩
    · rw [if_neg isInsert]
      apply Program.meets_throw
      intro state same
      subst same
      exact malformed

/-- A byte of a length. -/
private theorem nextOp_len_meets {add : Bool} {value shift : Nat} (byte : UInt8)
    (fits : (Op.len add value shift).Fits frame place) :
    Program.Meets
      (fun session => Packed frame place session ∧ session.applier.op = .len add value shift)
      (nextOp io byte place.blockEnd) (Moved frame place) (Refused frame) := by
  apply Program.meets_get_bind
  intro session starts
  obtain ⟨packed, isOp⟩ := starts
  have endFits := packed.endFits
  simp only [u32Max] at endFits
  have isOutput := packed.isOutput
  simp only [isOp]
  apply ((leb128_meets shift byte fits.1).starting packed).bind_known
  intro grown growth
  obtain ⟨grownFits, early⟩ := growth
  by_cases more : byte &&& 0x80 ≠ 0
  · rw [if_pos more]
    intro state stillPacked
    have noOverflow : shift + 7 < 2 ^ 32 := by omega
    rw [add32_of_lt noOverflow]
    exact ⟨place, rfl, rfl, stillPacked, grownFits, by omega⟩
  · rw [if_neg more]
    intro state stillPacked
    by_cases tooLong : grown = 0 ∨ place.blockEnd < saturatingAdd session.applier.output grown
    · rw [if_pos tooLong]
      exact refused_of_inBlock stillPacked.toInBlock .malformed
    · rw [if_neg tooLong]
      have positive : 0 < grown := by omega
      have bounded : place.output + grown ≤ place.blockEnd := by
        simp only [saturatingAdd, u32Max] at tooLong
        omega
      cases add with
      | true =>
          exact ⟨place, rfl, rfl, stillPacked, positive, bounded,
            by decide, by decide⟩
      | false => exact ⟨place, rfl, rfl, stillPacked, positive, bounded⟩

/-- A byte of the way to the bytes of the base. -/
private theorem nextOp_seek_meets {length value shift : Nat} (byte : UInt8)
    (fits : (Op.seek length value shift).Fits frame place) :
    Program.Meets
      (fun session => Packed frame place session ∧ session.applier.op = .seek length value shift)
      (nextOp io byte place.blockEnd) (Moved frame place) (Refused frame) := by
  apply Program.meets_get_bind
  intro session starts
  obtain ⟨packed, isOp⟩ := starts
  have endFits := packed.endFits
  simp only [u32Max] at endFits
  have isCursor := packed.isCursor
  have baseLen := packed.steady.baseLen
  have baseFits := packed.steady.baseFits
  obtain ⟨positive, bounded, valueFits, shiftFits⟩ := fits
  simp only [isOp]
  apply ((leb128_meets shift byte valueFits).starting packed).bind_known
  intro grown growth
  obtain ⟨grownFits, early⟩ := growth
  by_cases more : byte &&& 0x80 ≠ 0
  · rw [if_pos more]
    intro state stillPacked
    have noOverflow : shift + 7 < 2 ^ 32 := by omega
    rw [add32_of_lt noOverflow]
    exact ⟨place, rfl, rfl, stillPacked, positive, bounded, grownFits,
      by omega⟩
  · rw [if_neg more]
    intro state stillPacked
    have moves := unzigzag_bounds grownFits
    have inBase := packed.inBase
    have cursorFits :
        -2 ^ 63 ≤ (session.applier.cursor : Int) + unzigzag grown ∧
          (session.applier.cursor : Int) + unzigzag grown < 2 ^ 63 := by
      omega
    have reachFits :
        -2 ^ 63 ≤
            (session.applier.cursor : Int) + unzigzag grown + length ∧
          (session.applier.cursor : Int) + unzigzag grown + length <
            2 ^ 63 := by
      omega
    rw [i64_of_bounds cursorFits, Program.exec_bind_ok
      (Program.exec_pure _ _), i64_of_bounds reachFits,
      Program.exec_bind_ok (Program.exec_pure _ _)]
    by_cases outside :
        (session.applier.cursor : Int) + unzigzag grown < 0 ∨
          (session.applier.baseLen : Int) <
            (session.applier.cursor : Int) + unzigzag grown + length
    · rw [if_pos outside]
      exact refused_of_inBlock stillPacked.toInBlock .baseRange
    · rw [if_neg outside]
      refine ⟨{ place with
        cursor := (((session.applier.cursor : Int) + unzigzag grown) %
          2 ^ 32).toNat }, rfl, rfl,
        { stillPacked with
          steady := { stillPacked.steady with }
          isCursor := rfl
          inBase := ?_ },
        positive, bounded, ?_⟩
      · simp only
        omega
      · simp only
        omega

/-- A byte that is added to a byte of the base. -/
private theorem nextOp_add_meets {left : Nat} (byte : UInt8)
    (fits : (Op.add left).Fits frame place) :
    Program.Meets
      (fun session => Packed frame place session ∧ session.applier.op = .add left)
      (nextOp io byte place.blockEnd) (Moved frame place) (Refused frame) := by
  apply Program.meets_get_bind
  intro session starts
  obtain ⟨packed, isOp⟩ := starts
  have isCursor := packed.isCursor
  have baseFits := packed.steady.baseFits
  obtain ⟨positive, bounded, reach⟩ := fits
  simp only [isOp]
  have inside : place.cursor < frame.base := by omega
  apply ((baseByte_meets io inside).starting packed).bind
  intro base
  have noOverflow : session.applier.cursor + 1 < 2 ^ 32 := by omega
  rw [add32_of_lt noOverflow, pure_bind]
  have steps : Program.Meets (Packed frame place)
      (change fun applier =>
        { applier with cursor := session.applier.cursor + 1 } :
        Step Store Error Unit)
      (fun _ => Packed frame { place with cursor := place.cursor + 1 })
      (Refused frame) := by
    apply Program.meets_modify
    intro state stillPacked
    exact
      { stillPacked with
        steady := { stillPacked.steady with }
        isCursor := by simp only [isCursor]
        inBase := by
          simp only
          omega }
  apply steps.bind
  intro _
  apply (emit_meets io (base + byte) (by simp only; omega)).bind
  intro _
  by_cases last : left = 1
  · rw [if_pos last]
    intro state stillPacked
    exact ⟨{ place with
      cursor := place.cursor + 1, output := place.output + 1 },
      rfl, rfl, stillPacked, trivial⟩
  · rw [if_neg last]
    have noUnderflow : 1 ≤ left := by omega
    rw [subtract_of_le noUnderflow]
    intro state stillPacked
    refine ⟨{ place with
      cursor := place.cursor + 1, output := place.output + 1 },
      rfl, rfl, stillPacked, ?_, ?_, ?_⟩
    · omega
    · simp only
      omega
    · simp only
      omega

/-- A byte that stands for itself. -/
private theorem nextOp_insert_meets {left : Nat} (byte : UInt8)
    (fits : (Op.insert left).Fits frame place) :
    Program.Meets
      (fun session => Packed frame place session ∧ session.applier.op = .insert left)
      (nextOp io byte place.blockEnd) (Moved frame place) (Refused frame) := by
  apply Program.meets_get_bind
  intro session starts
  obtain ⟨packed, isOp⟩ := starts
  obtain ⟨positive, bounded⟩ := fits
  simp only [isOp]
  have room : place.output < place.blockEnd := by omega
  apply ((emit_meets io byte room).starting packed).bind
  intro _
  by_cases last : left = 1
  · rw [if_pos last]
    intro state stillPacked
    exact ⟨{ place with output := place.output + 1 }, rfl, rfl, stillPacked, trivial⟩
  · rw [if_neg last]
    have noUnderflow : 1 ≤ left := by omega
    rw [subtract_of_le noUnderflow]
    intro state stillPacked
    refine ⟨{ place with output := place.output + 1 }, rfl, rfl, stillPacked, ?_, ?_⟩
    · omega
    · simp only
      omega

theorem nextOp_meets (byte : UInt8) :
    Program.Meets
      (fun session =>
        Packed frame place session ∧ session.applier.op.Fits frame place)
      (nextOp io byte place.blockEnd) (Moved frame place) (Refused frame) := by
  intro session starts
  obtain ⟨packed, fits⟩ := starts
  cases isOp : session.applier.op with
  | tag => exact nextOp_tag_meets io byte session ⟨packed, isOp⟩
  | len add value shift =>
      rw [isOp] at fits
      exact nextOp_len_meets io byte fits session ⟨packed, isOp⟩
  | seek length value shift =>
      rw [isOp] at fits
      exact nextOp_seek_meets io byte fits session ⟨packed, isOp⟩
  | add left =>
      rw [isOp] at fits
      exact nextOp_add_meets io byte fits session ⟨packed, isOp⟩
  | insert left =>
      rw [isOp] at fits
      exact nextOp_insert_meets io byte fits session ⟨packed, isOp⟩

/-- What holds of a session between two unpacked bytes of a block. -/
def Steps (frame : Frame) (blockEnd bitCount : Nat) (session : Session Store) : Prop :=
  ∃ place : Place,
    place.blockEnd = blockEnd ∧ place.bitCount = bitCount ∧
      Packed frame place session ∧ session.applier.op.Fits frame place

theorem Steps.isBitCount {blockEnd bitCount : Nat} {session : Session Store}
    (steps : Steps frame blockEnd bitCount session) :
    session.applier.bitCount = bitCount := by
  obtain ⟨place, _, isCount, packed, _⟩ := steps
  rw [packed.isBitCount, isCount]

theorem decoded_meets (byte : UInt8) (blockEnd bitCount : Nat) :
    Program.Meets (Steps frame blockEnd bitCount)
      (decoded io byte blockEnd)
      (fun _ session => Steps frame blockEnd bitCount session)
      (Refused frame) := by
  apply Program.meets_get_bind
  intro session starts
  obtain ⟨place, rfl, rfl, packed, fits⟩ := starts
  have inWindow := packed.inWindow
  simp only [dif_pos inWindow]
  have stores : Program.Meets (fun start => start = session)
      (change fun applier =>
        { applier with
          window :=
            applier.window.set session.applier.windowPos byte inWindow
          windowPos := (session.applier.windowPos + 1) % lzssWindow } :
        Step Store Error Unit)
      (fun _ reached =>
        Packed frame place reached ∧ reached.applier.op.Fits frame place)
      (Refused frame) := by
    apply Program.meets_modify
    intro state same
    subst same
    exact
      ⟨{ packed with
          steady := { packed.steady with }
          inWindow := Nat.mod_lt _ (by decide) },
        fits⟩
  apply stores.bind
  intro _
  apply (nextOp_meets io byte).bind
  intro op
  apply Program.meets_modify
  intro state held
  obtain ⟨reached, isEnd, isCount, stillPacked, opFits⟩ := held
  exact
    ⟨reached, isEnd, isCount,
      { stillPacked with steady := { stillPacked.steady with } }, opFits⟩

/-! ## Unpacking -/

theorem recount_of_steps {blockEnd bitCount : Nat}
    {session : Session Store} (steps : Steps frame blockEnd bitCount session) (count : Nat) :
    Steps frame blockEnd count
      { session with
        applier := { session.applier with bitCount := count } } := by
  obtain ⟨place, isEnd, _, packed, fits⟩ := steps
  exact
    ⟨{ place with bitCount := count }, isEnd, rfl,
      { packed with
        steady := { packed.steady with }
        isBitCount := rfl },
      fits⟩

theorem windowByte_meets {blockEnd bitCount distance : Nat} (near : distance ≤ lzssWindow) :
    Program.Meets (Steps frame blockEnd bitCount)
      (windowByte distance : Step Store Error UInt8)
      (fun _ session => Steps frame blockEnd bitCount session)
      (Refused frame) := by
  intro session steps
  have noUnderflow : distance ≤ session.applier.windowPos + lzssWindow := by
    omega
  have inside : (session.applier.windowPos + lzssWindow - distance) %
      lzssWindow < lzssWindow :=
    Nat.mod_lt _ (by decide)
  simp only [windowByte, Program.exec_bind, Program.exec_get,
    subtract_of_le noUnderflow, Program.exec_pure,
    Vector.getElem?_eq_getElem inside]
  exact steps

private theorem and_mask_lt (bits count : Nat) :
    bits &&& ((1 <<< count) - 1) < 2 ^ count := by
  have mask : (1 <<< count) - 1 = 2 ^ count - 1 := by
    rw [Nat.shiftLeft_eq, Nat.one_mul]
  rw [mask, Nat.and_two_pow_sub_one_eq_mod]
  exact Nat.mod_lt _ (Nat.two_pow_pos count)

/-- A field of an item is below the power of its width. -/
theorem takeBits_meets {blockEnd bitCount count : Nat}
    (enough : count ≤ bitCount) (short : bitCount < 32) :
    Program.Meets (Steps frame blockEnd bitCount)
      (takeBits count : Step Store Error Nat)
      (fun field session =>
        Steps frame blockEnd (bitCount - count) session ∧ field < 2 ^ count)
      (Refused frame) := by
  intro session steps
  obtain ⟨place, isEnd, isCount, packed, fits⟩ := steps
  have counted := packed.isBitCount
  have enoughHere : count ≤ session.applier.bitCount := by omega
  have shortHere : session.applier.bitCount - count < 32 := by omega
  have same : session.applier.bitCount - count = bitCount - count := by
    omega
  simp only [takeBits, change, Program.exec_bind, Program.exec_get,
    subtract_of_le enoughHere, Program.exec_pure, Program.exec_modify,
    shiftRight32_of_lt shortHere]
  rw [same]
  exact ⟨recount_of_steps ⟨place, isEnd, isCount, packed, fits⟩ _, and_mask_lt _ count⟩

/-- The loop ends before its turns do, with less than an item left. -/
theorem decodeItems_meets {blockEnd bitCount turns : Nat}
    (enough : bitCount < turns) (short : bitCount < 32) :
    Program.Meets (Steps frame blockEnd bitCount)
      (decodeItems io blockEnd turns)
      (fun _ session =>
        ∃ left, left ≤ 16 ∧ Steps frame blockEnd left session)
      (Refused frame) := by
  induction turns generalizing bitCount with
  | zero => exact False.elim <| Nat.not_lt_zero bitCount enough
  | succ turns ih =>
      apply Program.meets_get_bind
      intro session steps
      have isCount := steps.isBitCount
      simp only [isCount]
      by_cases none : bitCount = 0
      · rw [if_pos none]
        apply Program.meets_pure
        intro state same
        subst same
        exact ⟨bitCount, by omega, steps⟩
      · rw [if_neg none]
        have topFits : bitCount - 1 < 32 := by omega
        rw [shiftRight32_of_lt topFits, pure_bind]
        by_cases incomplete : bitCount <
            1 + if (session.applier.bits >>> (bitCount - 1) &&& 1 == 1) =
                true then 8
              else lzssIndexBits + lzssLengthBits
        · rw [if_pos incomplete]
          apply Program.meets_pure
          intro state same
          subst same
          refine ⟨bitCount, ?_, steps⟩
          simp only [lzssIndexBits, lzssLengthBits] at *
          split at incomplete
          · omega
          · omega
        · rw [if_neg incomplete]
          have flag : Program.Meets (fun start => start = session)
              (change fun applier =>
                { applier with bitCount := bitCount - 1 } :
                Step Store Error Unit)
              (fun _ reached => Steps frame blockEnd (bitCount - 1) reached)
              (Refused frame) := by
            apply Program.meets_modify
            intro state same
            subst same
            exact recount_of_steps steps _
          apply flag.bind
          intro _
          split
          · rename_i literal
            rw [if_pos literal] at incomplete
            apply (takeBits_meets (by omega) (by omega)).bind_known
            intro byte _
            apply (decoded_meets io (UInt8.ofNat byte) blockEnd _).bind
            intro _
            exact ih (by omega) (by omega)
          · rename_i literal
            rw [if_neg literal] at incomplete
            have needed : lzssIndexBits + lzssLengthBits < bitCount := by
              omega
            have total : lzssIndexBits + lzssLengthBits = 16 := by decide
            apply (takeBits_meets (by omega) (by omega)).bind_known
            intro index indexFits
            apply (takeBits_meets (by omega) (by omega)).bind_known
            intro length _
            have near : index + 1 ≤ lzssWindow := by
              simp only [lzssWindow, lzssIndexBits] at *
              omega
            apply Program.Meets.bind
            · apply Program.meets_iterate
              apply (windowByte_meets near).bind
              intro byte
              exact decoded_meets io byte blockEnd _
            · intro _
              exact ih (by omega) (by omega)

/-! ## Blocks -/

/-- A session between two blocks, or before the first one. -/
structure Between (frame : Frame) (session : Session Store) : Prop where
  steady : Steady frame session
  empty : session.applier.out = []
  isOutput : session.applier.output =
    frame.start + deltaBlockOut * (endedBlocks session.log).length

/-- What holds of a session between two bytes of a patch. -/
def Waiting (frame : Frame) (session : Session Store) : Prop :=
  match session.applier.stage with
  | .header held =>
      Between frame session ∧ held < deltaHeaderLen ∧ session.applier.output = 0
  | .blockHeader held =>
      Between frame session ∧ held < deltaBlockHeaderLen ∧ session.applier.output < frame.target
  | .body packedLeft blockEnd =>
      0 < packedLeft ∧ ∃ bitCount, bitCount ≤ 16 ∧ Steps frame blockEnd bitCount session
  | .done => Journal frame session

/-- Fields that no part of the applier's own invariant is about. -/
theorem between_of_fields {session : Session Store}
    (between : Between frame session) {applier : DeltaApplier}
    (targetLen : applier.targetLen = session.applier.targetLen)
    (baseLen : applier.baseLen = session.applier.baseLen)
    (output : applier.output = session.applier.output) (out : applier.out = session.applier.out)
    (cache : applier.cache = session.applier.cache)
    (cacheStart : applier.cacheStart = session.applier.cacheStart) :
    Between frame { session with applier } := by
  have steady := between.steady
  constructor
  · constructor
    · exact steady.reads
    · exact steady.blocks
    · exact steady.targetFits
    · exact steady.baseFits
    · simp only [targetLen, steady.targetLen]
    · simp only [baseLen, steady.baseLen]
    · exact steady.accepted
    · simp only [out, output, steady.counted]
    · simp only [out, output, steady.opened]
    · simp only [output, steady.within]
    · simp only [cache, cacheStart, steady.cached]
  · simp only [out, between.empty]
  · simp only [output, between.isOutput]

theorem steps_advance {blockEnd bitCount : Nat} {session : Session Store}
    (steps : Steps frame blockEnd bitCount session) (patchOffset : Nat) :
    Steps frame blockEnd bitCount
      { session with applier := { session.applier with patchOffset } } := by
  obtain ⟨place, isEnd, isCount, packed, fits⟩ := steps
  exact ⟨place, isEnd, isCount, { packed with steady := { packed.steady with } }, fits⟩

theorem waiting_advance {session : Session Store}
    (waits : Waiting frame session) (patchOffset : Nat) :
    Waiting frame
      { session with applier := { session.applier with patchOffset } } := by
  simp only [Waiting] at waits ⊢
  split at waits
  · exact ⟨between_of_fields waits.1 rfl rfl rfl rfl rfl rfl, waits.2⟩
  · exact ⟨between_of_fields waits.1 rfl rfl rfl rfl rfl rfl, waits.2⟩
  · obtain ⟨positive, bitCount, short, steps⟩ := waits
    exact ⟨positive, bitCount, short, steps_advance steps patchOffset⟩
  · exact { waits with }

/-- The start of a block's packed bytes. -/
theorem steps_openBlock {session : Session Store} (between : Between frame session)
    (room : session.applier.output < frame.target) (packedLeft : Nat) {baseOffset : Nat}
    (inBase : baseOffset ≤ session.applier.baseLen) :
    Steps frame
      (min (saturatingAdd session.applier.output deltaBlockOut) session.applier.targetLen) 0
      { session with
        applier := session.applier.openBlock packedLeft baseOffset } := by
  have steady := between.steady
  have isOutput := between.isOutput
  have targetLen := steady.targetLen
  have targetFits := steady.targetFits
  have baseLen := steady.baseLen
  have isEnd :
      min (saturatingAdd session.applier.output deltaBlockOut)
          session.applier.targetLen =
        frame.blockEnd (endedBlocks session.log).length := by
    have step := Nat.mul_add_one deltaBlockOut (endedBlocks session.log).length
    rw [saturatingAdd, Frame.blockEnd, isOutput, targetLen]
    generalize u32Max = top at *
    generalize deltaBlockOut = size at *
    omega
  have inBlock : session.applier.output ≤
      min (saturatingAdd session.applier.output deltaBlockOut)
        session.applier.targetLen := by
    have fits : session.applier.output ≤ u32Max := by omega
    rw [saturatingAdd]
    generalize u32Max = top at *
    generalize deltaBlockOut = size at *
    omega
  have inBaseFrame : baseOffset ≤ frame.base := by omega
  have window : 0 < lzssWindow := by decide
  have buffered : session.applier.out.length < staging := by
    simp [between.empty, staging]
  have body : (session.applier.openBlock packedLeft baseOffset).stage ≠
      .done := by
    simp [DeltaApplier.openBlock]
  exact
    ⟨{ blockEnd := min (saturatingAdd session.applier.output deltaBlockOut)
         session.applier.targetLen
       bitCount := 0
       cursor := baseOffset
       output := session.applier.output }, rfl, rfl,
      { steady := { steady with }
        unfinished := body
        isEnd := isEnd
        isBitCount := rfl
        isCursor := rfl
        isOutput := rfl
        inBase := inBaseFrame
        inBlock := inBlock
        inWindow := window
        buffered := buffered }, trivial⟩

/-- The end of a block. -/
private theorem waiting_endBlock {place : Place} {session : Session Store}
    (packed : Packed frame place session) (empty : session.applier.out = [])
    (whole : place.output = place.blockEnd) (checkpoint : Checkpoint) :
    Waiting frame
      { session with
        applier :=
          { session.applier with
            stage :=
              if place.output = session.applier.targetLen then .done
              else .blockHeader 0 }
        log := session.log ++ [.block checkpoint] } := by
  have steady := packed.steady
  have opened := steady.opened
  have counted := steady.counted
  have within := steady.within
  have isEnd := packed.isEnd
  have isOutput := packed.isOutput
  have targetLen := steady.targetLen
  have noBytes : written [.block checkpoint] = [] := rfl
  have noOffer : offered [.block checkpoint] = [] := rfl
  have step := Nat.mul_add_one deltaBlockOut (endedBlocks session.log).length
  simp only [Frame.blockEnd] at isEnd
  rw [empty] at opened counted
  simp only [List.length_nil, Nat.add_zero] at opened counted
  have reads : ∀ offset length,
      Event.read offset length ∈ session.log ++ [.block checkpoint] →
        offset + length ≤ frame.base := by
    intro offset length among
    simp only [List.mem_append, List.mem_singleton, reduceCtorEq, or_false] at among
    exact steady.reads offset length among
  by_cases finished : place.output = session.applier.targetLen
  · simp only [Waiting, finished, if_true]
    constructor
    · exact reads
    · simp only [offered_append, noOffer, List.append_nil, steady.accepted]
      omega
    · intro block _ earlier
      simp only [ne_eq, not_true_eq_false, endedBlocks_block,
        List.dropLast_concat, false_or] at earlier
      exact steady.blocks block earlier
    · intro _
      simp only [written_append, noBytes, List.append_nil]
      omega
  · simp only [Waiting, finished, if_false]
    refine ⟨⟨?_, empty, ?_⟩, by decide, ?_⟩
    · constructor
      · exact reads
      · intro block among
        simp only [endedBlocks_block, List.mem_append, List.mem_singleton] at among
        rcases among with earlier | last
        · exact steady.blocks block earlier
        · rw [last]
          omega
      · exact steady.targetFits
      · exact steady.baseFits
      · exact steady.targetLen
      · exact steady.baseLen
      · simp only [offered_append, written_append, noBytes, noOffer, steady.accepted]
      · simp only [written_append, noBytes, List.append_nil, empty,
          List.length_nil]
        omega
      · simp only [endedBlocks_block, openBytes_block, List.length_append,
          List.length_singleton, List.length_nil, empty]
        omega
      · exact steady.within
      · exact steady.cached
    · simp only [endedBlocks_block, List.length_append,
        List.length_singleton]
      omega
    · omega

private theorem storeHeader_meets {index : Nat} (byte : UInt8)
    (inside : index < deltaHeaderLen) {session : Session Store}
    (between : Between frame session) :
    Program.Meets (fun start => start = session)
      (storeHeader index byte : Step Store Error Unit)
      (fun _ reached =>
        Between frame reached ∧
          reached.applier.stage = session.applier.stage ∧
            reached.applier.output = session.applier.output)
      (Refused frame) := by
  rw [storeHeader, dif_pos inside]
  apply Program.meets_modify
  intro start same
  subst same
  exact ⟨between_of_fields between rfl rfl rfl rfl rfl rfl, rfl, rfl⟩

/-- One byte of the header of any patch. -/
private theorem pushHeader_meets {held : Nat} (byte : UInt8)
    {session : Session Store} (waits : Waiting frame session)
    (stage : session.applier.stage = .header held) :
    Program.Meets (fun start => start = session)
      (pushHeader held byte : Step Store Error (Option Checkpoint))
      (fun _ reached => Waiting frame reached) (Refused frame) := by
  simp only [Waiting, stage] at waits
  obtain ⟨between, within, isZero⟩ := waits
  apply (storeHeader_meets byte within between).bind
  intro _
  by_cases more : held + 1 < deltaHeaderLen
  · rw [if_pos more]
    intro start stored
    obtain ⟨between, _, sameOutput⟩ := stored
    exact ⟨between_of_fields between rfl rfl rfl rfl rfl rfl, more, sameOutput.trans isZero⟩
  · rw [if_neg more]
    apply Program.meets_get_bind
    intro start stored
    obtain ⟨between, sameStage, sameOutput⟩ := stored
    dsimp only
    split
    · apply Program.meets_throw
      intro state same
      subst same
      have unfinished : state.applier.stage ≠ .done := by
        rw [sameStage, stage]
        exact Stage.noConfusion
      exact ⟨⟨.malformed, rfl⟩, between.steady.journal unfinished⟩
    · rename_i accepted
      intro state same
      subst same
      simp only [not_or, Decidable.not_not] at accepted
      have targetLen := between.steady.targetLen
      have room : state.applier.output < frame.target := by omega
      exact
        ⟨between_of_fields between rfl rfl rfl rfl rfl rfl, by decide,
          room⟩

/-- One byte of the header of any block. -/
private theorem pushBlockHeader_meets {held : Nat} (byte : UInt8)
    {session : Session Store} (waits : Waiting frame session)
    (stage : session.applier.stage = .blockHeader held) :
    Program.Meets (fun start => start = session)
      (pushBlockHeader held byte : Step Store Error (Option Checkpoint))
      (fun _ reached => Waiting frame reached) (Refused frame) := by
  simp only [Waiting, stage] at waits
  obtain ⟨between, within, room⟩ := waits
  have inHeader : held < deltaHeaderLen :=
    Nat.lt_trans within (by decide)
  apply (storeHeader_meets byte inHeader between).bind
  intro _
  by_cases more : held + 1 < deltaBlockHeaderLen
  · rw [if_pos more]
    intro start stored
    obtain ⟨between, _, sameOutput⟩ := stored
    have stillRoom : start.applier.output < frame.target := by omega
    exact ⟨between_of_fields between rfl rfl rfl rfl rfl rfl, more, stillRoom⟩
  · rw [if_neg more]
    apply Program.meets_get_bind
    intro start stored
    obtain ⟨between, sameStage, sameOutput⟩ := stored
    dsimp only
    split
    · apply Program.meets_throw
      intro state same
      subst same
      have unfinished : state.applier.stage ≠ .done := by
        rw [sameStage, stage]
        exact Stage.noConfusion
      exact ⟨⟨.malformed, rfl⟩, between.steady.journal unfinished⟩
    · rename_i accepted
      intro state same
      subst same
      simp only [not_or, Nat.not_lt] at accepted
      have stillRoom : state.applier.output < frame.target := by omega
      exact
        ⟨Nat.pos_of_ne_zero accepted.1, 0, Nat.zero_le 16,
          steps_openBlock between stillRoom _ accepted.2⟩

/-- The last packed byte of any block. -/
private theorem endBlock_meets {blockEnd : Nat} :
    Program.Meets
      (fun session => ∃ left ≤ 16, Steps frame blockEnd left session)
      (endBlock io blockEnd : Step Store Error (Option Checkpoint))
      (fun _ reached => Waiting frame reached) (Refused frame) := by
  apply Program.meets_get_bind
  intro reached held
  obtain ⟨left, leftShort, place, isEnd, isLeft, packed, fits⟩ := held
  dsimp only
  split
  · apply Program.meets_throw
    intro state same
    subst same
    exact refused_of_inBlock packed.toInBlock .malformed
  · rename_i whole
    simp only [not_or, Decidable.not_not] at whole
    have isEndHere : place.output = place.blockEnd := by
      rw [← packed.isOutput, whole.1, isEnd]
    apply ((flush_meets io).starting packed.toInBlock).bind
    intro _ state flushed
    obtain ⟨stillPacked, empty⟩ := flushed
    have ended := waiting_endBlock stillPacked empty isEndHere
      ⟨reached.applier.patchOffset, reached.applier.output⟩
    have sameTarget : reached.applier.targetLen =
        state.applier.targetLen := by
      rw [packed.steady.targetLen, stillPacked.steady.targetLen]
    rw [← sameTarget, ← packed.isOutput] at ended
    exact ended

/-- One packed byte of any block. -/
private theorem pushBody_meets {packedLeft blockEnd : Nat} (byte : UInt8)
    {session : Session Store} (waits : Waiting frame session)
    (stage : session.applier.stage = .body packedLeft blockEnd) :
    Program.Meets (fun start => start = session)
      (pushBody io packedLeft blockEnd byte : Step Store Error (Option Checkpoint))
      (fun _ reached => Waiting frame reached) (Refused frame) := by
  simp only [Waiting, stage] at waits
  obtain ⟨positive, bitCount, short, steps⟩ := waits
  apply Program.meets_get_bind
  rintro session rfl
  have isCount := steps.isBitCount
  have noOverflow : session.applier.bitCount + 8 < 2 ^ 32 := by omega
  rw [shiftLeft32_of_lt (by decide), pure_bind, add32_of_lt noOverflow,
    pure_bind]
  have filled : Program.Meets (fun start => start = session)
      (change fun applier =>
        { applier with
          bits := (session.applier.bits <<< 8) % 2 ^ 32 ||| byte.toNat
          bitCount := session.applier.bitCount + 8 } :
        Step Store Error Unit)
      (fun _ reached =>
        Steps frame blockEnd (session.applier.bitCount + 8) reached)
      (Refused frame) := by
    apply Program.meets_modify
    intro start same
    subst same
    obtain ⟨place, isEnd, _, packed, fits⟩ := steps
    exact
      ⟨{ place with bitCount := start.applier.bitCount + 8 }, isEnd, rfl,
        { packed with
          steady := { packed.steady with }
          isBitCount := rfl },
        fits⟩
  apply filled.bind
  intro _
  apply (decodeItems_meets io (Nat.lt_succ_self _) (by omega)).bind
  intro _
  rw [subtract_of_le positive, pure_bind]
  by_cases more : packedLeft - 1 ≠ 0
  · rw [if_pos more]
    intro state held
    obtain ⟨left, leftShort, place, isEnd, isLeft, packed, fits⟩ := held
    exact
      ⟨Nat.pos_of_ne_zero more, left, leftShort, place, isEnd, isLeft,
        { packed with
          steady := { packed.steady with }
          unfinished := Stage.noConfusion },
        fits⟩
  · rw [if_neg more]
    exact endBlock_meets io

/-- One byte of any patch, in any state the applier can wait in. -/
theorem pushByte_meets (byte : UInt8) :
    Program.Meets (Waiting frame) (pushByte io byte)
      (fun _ session => Waiting frame session) (Refused frame) := by
  have advances : Program.Meets (Waiting frame)
      (change fun applier =>
        { applier with
          patchOffset := (applier.patchOffset + 1) % 2 ^ 32 } :
        Step Store Error Unit)
      (fun _ session => Waiting frame session) (Refused frame) := by
    apply Program.meets_modify
    intro session waits
    exact waiting_advance waits _
  apply advances.bind
  intro _
  apply Program.meets_get_bind
  intro session waits
  split
  · rename_i held stage
    exact pushHeader_meets byte waits stage
  · rename_i held stage
    exact pushBlockHeader_meets byte waits stage
  · rename_i packedLeft blockEnd stage
    exact pushBody_meets io byte waits stage
  · apply Program.meets_throw
    intro start same
    subst same
    rename_i stage
    simp only [Waiting, stage] at waits
    exact ⟨⟨.malformed, rfl⟩, waits⟩

theorem push_meets (patch : List UInt8) :
    Program.Meets (Waiting frame) (push io patch)
      (fun _ session => Waiting frame session) (Refused frame) :=
  Program.meets_through (pushByte_meets io) none patch

theorem journal_of_waiting {session : Session Store}
    (waits : Waiting frame session) : Journal frame session := by
  simp only [Waiting] at waits
  split at waits
  · rename_i held stage
    apply waits.1.steady.journal
    rw [stage]
    exact Stage.noConfusion
  · rename_i held stage
    apply waits.1.steady.journal
    rw [stage]
    exact Stage.noConfusion
  · obtain ⟨_, _, _, _, _, _, packed, _⟩ := waits
    exact packed.journal
  · exact waits

/-- Pieces leave a log that is in order, and no fault. -/
theorem feed_refused (pieces : List (List UInt8))
    (checkpoint : Option Checkpoint) {session : Session Store} (waits : Waiting frame session) :
    (∀ fault,
        (feed io pieces checkpoint session).stopped ≠ some (.fault fault)) ∧
      Journal frame (feed io pieces checkpoint session).session := by
  induction pieces generalizing checkpoint session with
  | nil =>
      have goesOn (fault : Fault) :
          (feed io [] checkpoint session).stopped ≠
            some (.fault fault) := by
        simp [feed]
      exact ⟨goesOn, journal_of_waiting waits⟩
  | cons piece rest ih =>
      have pushed := push_meets io piece session waits
      rw [feed]
      rcases ran : (push io piece).exec session with ⟨result, reached⟩
      rw [ran] at pushed
      cases result with
      | ok reported => exact ih _ pushed
      | error halt =>
          obtain ⟨⟨error, isError⟩, journal⟩ := pushed
          simp only [isError, ne_eq, Option.some.injEq, reduceCtorEq,
            not_false_eq_true, implies_true, true_and]
          exact journal

end Operations

/-! ## Any patch, in any pieces -/

/-- An applier that starts at the patch header, or after a checkpoint. -/
def DeltaApplier.begin (targetLen baseLen : Nat) :
    Option Checkpoint → DeltaApplier
  | none => .new targetLen baseLen
  | some point => .resume targetLen baseLen point

/-- The target offset at which the output of such an applier starts. -/
def startOutput : Option Checkpoint → Nat
  | none => 0
  | some point => point.output

private theorem steady_fresh (frame : Frame) (applier : DeltaApplier)
    (targetFits : frame.target < u32Max) (baseFits : frame.base < 2 ^ 32)
    (targetLen : applier.targetLen = frame.target)
    (baseLen : applier.baseLen = frame.base) (output : applier.output = frame.start)
    (within : frame.start ≤ frame.target) (out : applier.out = []) (cache : applier.cache = [])
    (cacheStart : applier.cacheStart = 0) (store : Store) :
    Between frame (.start applier store) := by
  have noBlocks : endedBlocks ([] : List Event) = [] := rfl
  have noBytes : openBytes ([] : List Event) = [] := rfl
  constructor
  · constructor
    · intro offset length among
      simp [Session.start] at among
    · intro block among
      simp [Session.start, noBlocks] at among
    · exact targetFits
    · exact baseFits
    · exact targetLen
    · exact baseLen
    · rfl
    · simp [Session.start, written, out, output]
    · simp [Session.start, noBlocks, noBytes, out, output]
    · simp only [Session.start, output]
      exact within
    · simp [Session.start, cache, cacheStart]
  · exact out
  · simp [Session.start, noBlocks, output]

/-- An applier that nothing was pushed to waits for a first byte. -/
theorem waiting_begin {targetLen baseLen : Nat}
    (targetFits : targetLen < u32Max) (baseFits : baseLen < 2 ^ 32)
    (point : Option Checkpoint) (store : Store) :
    Waiting ⟨targetLen, baseLen, startOutput point⟩
      (.start (.begin targetLen baseLen point) store) := by
  cases point with
  | none =>
      have fresh := steady_fresh ⟨targetLen, baseLen, 0⟩
        (.new targetLen baseLen) targetFits baseFits rfl rfl rfl
        (Nat.zero_le _) rfl rfl rfl store
      exact ⟨fresh, by decide, rfl⟩
  | some point =>
      by_cases finished : targetLen ≤ point.output
      · simp only [Waiting, Session.start, DeltaApplier.begin,
          DeltaApplier.resume, if_pos finished]
        constructor
        · intro offset length among
          simp at among
        · simp only [offered, List.flatMap_nil, List.length_nil]
          omega
        · intro block among
          simp [endedBlocks, cutBlocks] at among
        · intro _
          simp only [written, List.flatMap_nil, List.length_nil, startOutput]
          omega
      · have fresh := steady_fresh ⟨targetLen, baseLen, point.output⟩
          (.resume targetLen baseLen point) targetFits baseFits
          rfl rfl rfl (by simp only; omega) rfl rfl rfl store
        have room : point.output < targetLen := by omega
        simp only [Waiting, Session.start, DeltaApplier.begin,
          DeltaApplier.resume, if_neg finished]
        refine ⟨?_, by decide, room⟩
        simpa only [Session.start, DeltaApplier.resume, startOutput,
          if_neg finished] using fresh

/-- Whatever bytes are pushed, in whatever pieces, until the first error: the
applier never faults, reads only inside the base, never offers more than is
left of the target, ends every block but the one that reaches the target with
exactly the block size, and is complete only if it wrote all that was left. -/
theorem feed_hostile (io : DeltaIo Store Error) (store : Store)
    (targetLen baseLen : UInt32) (targetFits : targetLen.toNat < u32Max)
    (point : Option Checkpoint) (pieces : List (List UInt8)) :
    let applier :=
      DeltaApplier.begin targetLen.toNat baseLen.toNat point
    let fed := feed io pieces none (.start applier store)
    let log := fed.session.log
    (∀ fault, fed.stopped ≠ some (.fault fault)) ∧
      (∀ offset length, .read offset length ∈ log → offset + length ≤ baseLen.toNat) ∧
      (offered log).length ≤ targetLen.toNat - startOutput point ∧
      (∀ block ∈ endedBlocks log,
        (fed.session.applier.complete = false ∨ block ∈ (endedBlocks log).dropLast) →
        block.length = deltaBlockOut) ∧
      (fed.session.applier.complete = true →
        (written log).length = targetLen.toNat - startOutput point) := by
  have waits := waiting_begin targetFits baseLen.toNat_lt point store
  obtain ⟨noFault, journal⟩ := feed_refused io pieces none waits
  refine ⟨noFault, journal.reads, ?_, ?_, ?_⟩
  · have offers := journal.offers
    simp only at offers
    omega
  · intro block among place
    apply journal.blocks block among
    simpa [DeltaApplier.complete] using place
  · intro complete
    apply journal.completes
    simpa [DeltaApplier.complete] using complete

theorem feed_hostile_insert :
    let fed := feed (vecIo []) [insertPatch, [0]] none (.start (.begin 3 0 none) [])
    fed.session.applier.complete = true ∧
      (written fed.session.log).length = 3 := by
  have three : (3 : UInt32).toNat = 3 := rfl
  have zero : (0 : UInt32).toNat = 0 := rfl
  have safe := feed_hostile (vecIo []) [] 3 0 (by decide) none
    [insertPatch, [0]]
  rw [three, zero] at safe
  have complete : (feed (vecIo []) [insertPatch, [0]] none
      (.start (.begin 3 0 none) [])).session.applier.complete = true := by
    decide +kernel
  exact ⟨complete, safe.2.2.2.2 complete⟩

end Ratspeak.Delta
