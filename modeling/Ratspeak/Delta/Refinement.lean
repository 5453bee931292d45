import Ratspeak.Delta.Meaning
import Ratspeak.Delta.Safety

/-!
# The applier computes what a patch means

`Refines` relates a session with a decoder: the ring holds what was unpacked,
the bit buffer the waiting bits, and what was written with what is buffered is
what the decoder made.  Every step of the applier keeps it, or stops; with an
adapter that serves the base it stops only where the decoder has no value.
-/

namespace Ratspeak.Delta

open Library

variable {Store Error : Type}

/-- Reads that succeed return the bytes of this base. -/
structure DeltaIo.Faithful (io : DeltaIo Store Error) (base : List UInt8) :
    Prop where
  reads : ∀ store offset length bytes, offset + length ≤ base.length →
    (io.readBase store offset length).1 = .ok bytes → bytes.val = (base.drop offset).take length

/-- Reads return the bytes of this base, and writes are accepted. -/
structure DeltaIo.Serves (io : DeltaIo Store Error) (base : List UInt8) :
    Prop extends io.Faithful base where
  answers : ∀ store offset length, offset + length ≤ base.length →
    ∃ bytes, (io.readBase store offset length).1 = .ok bytes
  accepts : ∀ store bytes, (io.write store bytes).1 = .ok ()

theorem vecIo_serves (base : List UInt8) : (vecIo base).Serves base := by
  have answer (out : List UInt8) {offset length : Nat}
      (bounded : offset + length ≤ base.length) :
      ∃ fits : ((base.drop offset).take length).length = length,
        ((vecIo base).readBase out offset length).1 =
          .ok ⟨(base.drop offset).take length, fits⟩ := by
    have fits : ((base.drop offset).take length).length = length := by
      rw [List.length_take, List.length_drop]
      omega
    refine ⟨fits, ?_⟩
    simp only [vecIo, Bytes.ofList, dif_pos fits]
  constructor
  · constructor
    intro out offset length bytes bounded isRead
    obtain ⟨_, answered⟩ := answer out bounded
    rw [answered] at isRead
    cases isRead
    rfl
  · intro out offset length bounded
    obtain ⟨_, answered⟩ := answer out bounded
    exact ⟨_, answered⟩
  · intro _ _
    rfl

/-- What the operations of a block leave alone. -/
structure Still where
  patchOffset : Nat
  bits : Nat
  window : Vector UInt8 lzssWindow
  windowPos : Nat

def DeltaApplier.still (applier : DeltaApplier) : Still where
  patchOffset := applier.patchOffset
  bits := applier.bits
  window := applier.window
  windowPos := applier.windowPos

/-- A session has done this work, of which the first `start` bytes were made
before it. -/
structure Works (base : List UInt8) (start : Nat) (still : Still)
    (work : Work) (session : Session Store) : Prop where
  writes : written session.log ++ session.applier.out = work.made.drop start
  started : start ≤ work.made.length
  isOutput : session.applier.output = work.made.length
  isCursor : session.applier.cursor = work.cursor
  cached : session.applier.cache =
    (base.drop session.applier.cacheStart).take session.applier.cache.length
  isStill : session.applier.still = still

section Operations

variable {io : DeltaIo Store Error} {base : List UInt8} {frame : Frame}
  {place : Place} {still : Still} {work : Work}

/-! ## Output and base -/

theorem flush_refines :
    Program.Meets
      (fun session =>
        InBlock frame place session ∧ Works base frame.start still work session)
      (flush io)
      (fun _ session => Works base frame.start still work session)
      (fun _ _ => ¬ io.Serves base) := by
  intro session held
  obtain ⟨_, works⟩ := held
  by_cases empty : session.applier.out = []
  · have ran : (flush io).exec session = (.ok (), session) := by
      simp [flush, Program.exec_bind, empty]
    rw [ran]
    exact works
  · rcases wrote : io.write session.store session.applier.out with
      ⟨result, store⟩
    cases result with
    | ok value =>
        simp only [flush, writeOut, note, change, Program.exec_bind,
          Program.exec_get, ne_eq, empty, not_false_eq_true, if_true, wrote,
          Program.exec_modify]
        have writes := works.writes
        have isWritten : written [.write session.applier.out true] =
            session.applier.out := by
          simp [written]
        exact
          { writes := by
              simp only [written_append, isWritten, List.append_nil]
              exact writes
            started := works.started
            isOutput := works.isOutput
            isCursor := works.isCursor
            cached := works.cached
            isStill := works.isStill }
    | error error =>
        simp only [flush, writeOut, note, fail, Program.exec_bind,
          Program.exec_get, ne_eq, empty, not_false_eq_true, if_true, wrote,
          Program.exec_modify, Program.exec_throw]
        intro serves
        have accepted := serves.accepts session.store session.applier.out
        rw [wrote] at accepted
        cases accepted

theorem emit_refines (byte : UInt8) (room : place.output < place.blockEnd) :
    Program.Meets
      (fun session =>
        Packed frame place session ∧ Works base frame.start still work session)
      (emit io byte)
      (fun _ session =>
        Works base frame.start still { work with made := work.made ++ [byte] } session)
      (fun _ _ => ¬ io.Serves base) := by
  intro session held
  obtain ⟨packed, works⟩ := held
  have inside := packed.toInBlock.emitted room byte
  have grown : Works base frame.start still
      { work with made := work.made ++ [byte] } (session.emitted byte) := by
    constructor
    · simp only [Session.emitted, ← List.append_assoc, works.writes]
      rw [List.drop_append_of_le_length works.started]
    · have started := works.started
      simp only [List.length_append, List.length_singleton]
      omega
    · simp only [Session.emitted, works.isOutput, List.length_append, List.length_singleton]
    · exact works.isCursor
    · exact works.cached
    · exact works.isStill
  rw [emit_exec io packed room byte]
  by_cases full : session.applier.out.length + 1 = staging
  · rw [if_pos full]
    exact flush_refines (session.emitted byte) ⟨inside, grown⟩
  · rw [if_neg full]
    exact grown

theorem baseByte_refines (faithful : io.Faithful base) (isBase : frame.base = base.length)
    (inside : place.cursor < frame.base) :
    Program.Meets
      (fun session =>
        Packed frame place session ∧ Works base frame.start still work session)
      (baseByte io)
      (fun byte session =>
        Works base frame.start still work session ∧ base[place.cursor]? = some byte)
      (fun _ _ => ¬ io.Serves base) := by
  intro session held
  obtain ⟨packed, works⟩ := held
  have steady := packed.steady
  have isCursor := packed.isCursor
  have baseLen := steady.baseLen
  have baseFits := steady.baseFits
  have cached := steady.cached
  by_cases miss : session.applier.cursor < session.applier.cacheStart ∨
      session.applier.cache.length ≤
        (session.applier.cursor + 2 ^ 32 - session.applier.cacheStart) % 2 ^ 32
  · have noUnderflow : session.applier.cursor ≤ session.applier.baseLen := by
      omega
    have bounded : session.applier.cursor +
        min (session.applier.baseLen - session.applier.cursor) staging ≤
          base.length := by
      omega
    have nonempty : 0 <
        min (session.applier.baseLen - session.applier.cursor) staging := by
      simp only [staging]
      omega
    rcases read : io.readBase session.store session.applier.cursor
        (min (session.applier.baseLen - session.applier.cursor) staging) with
      ⟨result, store⟩
    cases result with
    | error error =>
        simp only [baseByte, note, fail, Program.exec_bind, Program.exec_get,
          if_pos miss, subtract_of_le noUnderflow, Program.exec_pure,
          Program.exec_modify, read, Program.exec_throw]
        intro serves
        obtain ⟨bytes, answered⟩ :=
          serves.answers session.store _ _ bounded
        rw [read] at answered
        cases answered
    | ok bytes =>
        have present : 0 < bytes.val.length := by
          rw [bytes.property]
          exact nonempty
        have isRead := faithful.reads session.store _ _ bytes bounded (by rw [read])
        have first : base[place.cursor]? = some bytes.val[0] := by
          have same : bytes.val[0]? = some bytes.val[0] :=
            List.getElem?_eq_getElem present
          rw [← same, isRead, List.getElem?_take_of_lt nonempty,
            List.getElem?_drop, isCursor, Nat.add_zero]
        simp only [baseByte, note, change, Program.exec_bind,
          Program.exec_get, if_pos miss, subtract_of_le noUnderflow,
          Program.exec_pure, Program.exec_modify, read,
          List.getElem?_eq_getElem present]
        refine ⟨?_, first⟩
        constructor
        · simpa [written] using works.writes
        · exact works.started
        · exact works.isOutput
        · exact works.isCursor
        · simp only [bytes.property]
          exact isRead
        · exact works.isStill
  · have hit : session.applier.cacheStart ≤ session.applier.cursor ∧
        (session.applier.cursor + 2 ^ 32 - session.applier.cacheStart) %
            2 ^ 32 <
          session.applier.cache.length := by
      omega
    have index : (session.applier.cursor + 2 ^ 32 -
        session.applier.cacheStart) % 2 ^ 32 =
          session.applier.cursor - session.applier.cacheStart := by
      omega
    simp only [baseByte, Program.exec_bind, Program.exec_get, if_neg miss,
      List.getElem?_eq_getElem hit.2, Program.exec_pure]
    refine ⟨works, ?_⟩
    have found := List.getElem?_eq_getElem hit.2
    rw [← found, works.cached, List.getElem?_take_of_lt hit.2,
      List.getElem?_drop, index, ← isCursor]
    congr 1
    omega

/-! ## Operations -/

theorem leb128_exec (value shift : Nat) (byte : UInt8) (session : Session Store) :
    (leb128 value shift byte : Step Store Error Nat).exec session =
      match grow value shift byte with
      | none => (.error (.error .malformed), session)
      | some grown => (.ok grown, session) := by
  by_cases long : 28 < shift ∨ (shift = 28 ∧ byte &&& 0x70 ≠ 0)
  · simp only [leb128, grow, if_pos long, fail, Program.exec_throw]
  · have noLoss : shift < 32 := by omega
    simp only [leb128, grow, if_neg long, Program.exec_bind,
      shiftLeft32_of_lt noLoss, Program.exec_pure]

private theorem grow_lt {value shift grown : Nat} {byte : UInt8}
    (fits : value < 2 ^ 32) (grows : grow value shift byte = some grown) :
    grown < 2 ^ 32 := by
  simp only [grow, Option.ite_none_left_eq_some, Option.some.injEq] at grows
  rw [← grows.2]
  exact Nat.or_lt_two_pow fits (Nat.mod_lt _ (by decide))

/-- The applier waits for a byte of the operations where the work does. -/
def Ready (base : List UInt8) (frame : Frame) (place : Place) (still : Still) (work : Work)
    (session : Session Store) : Prop :=
  (Packed frame place session ∧ work.op.Fits frame place) ∧
    session.applier.op = work.op ∧ Works base frame.start still work session

/-- After `nextOp`: the opcode and the session are those of the work's next step. -/
def Worked (base : List UInt8) (frame : Frame) (place : Place) (still : Still) (work : Work)
    (byte : UInt8) (op : Op) (session : Session Store) : Prop :=
  ∃ reached, work.step base place.blockEnd byte = some reached ∧
    reached.op = op ∧ Works base frame.start still reached session

private theorem nextOp_tag_refines (byte : UInt8) (isOp : work.op = .tag) :
    Program.Meets (Ready base frame place still work)
      (nextOp io byte place.blockEnd) (Worked base frame place still work byte)
      (fun _ _ =>
        io.Serves base → work.step base place.blockEnd byte = none) := by
  apply Program.meets_get_bind
  intro session starts
  obtain ⟨⟨packed, fits⟩, sameOp, works⟩ := starts
  simp only [sameOp, isOp]
  by_cases isAdd : byte = opAdd
  · rw [if_pos isAdd]
    apply Program.meets_pure
    intro state same
    subst same
    refine ⟨{ work with op := .len true 0 0 }, ?_, rfl, { works with }⟩
    simp only [Work.step, isOp, if_pos isAdd]
  · rw [if_neg isAdd]
    by_cases isInsert : byte = opInsert
    · rw [if_pos isInsert]
      apply Program.meets_pure
      intro state same
      subst same
      refine ⟨{ work with op := .len false 0 0 }, ?_, rfl, { works with }⟩
      simp only [Work.step, isOp, if_neg isAdd, if_pos isInsert]
    · rw [if_neg isInsert]
      apply Program.meets_throw
      intro state same _
      simp only [Work.step, isOp, if_neg isAdd, if_neg isInsert]

private theorem nextOp_len_refines {add : Bool} {value shift : Nat} (byte : UInt8)
    (isOp : work.op = .len add value shift) :
    Program.Meets (Ready base frame place still work)
      (nextOp io byte place.blockEnd) (Worked base frame place still work byte)
      (fun _ _ =>
        io.Serves base → work.step base place.blockEnd byte = none) := by
  apply Program.meets_get_bind
  intro session starts
  obtain ⟨⟨packed, fits⟩, sameOp, works⟩ := starts
  have madeOutput := works.isOutput
  have endFits := packed.endFits
  simp only [u32Max] at endFits
  simp only [sameOp, isOp]
  intro state same
  subst same
  simp only [Worked, Program.exec_bind, leb128_exec, Work.step, isOp]
  cases grown : grow value shift byte with
  | none =>
      intro _
      rfl
  | some value =>
      rw [isOp] at fits
      have noOverflow : shift + 7 < 2 ^ 32 := by
        have short : shift ≤ 35 := fits.2
        omega
      simp only
      by_cases more : byte &&& 0x80 ≠ 0
      · simp only [if_pos more, add32_of_lt noOverflow,
          Program.exec_bind, Program.exec_pure]
        exact ⟨_, rfl, rfl, { works with }⟩
      · have sameBound : (value = 0 ∨ place.blockEnd <
            saturatingAdd state.applier.output value) ↔
              (value = 0 ∨
                place.blockEnd < work.made.length + value) := by
          simp only [saturatingAdd, u32Max]
          omega
        simp only [if_neg more, sameBound]
        by_cases tooLong : value = 0 ∨ place.blockEnd < work.made.length + value
        · simp only [if_pos tooLong, fail, Program.exec_throw]
          intro _
          trivial
        · simp only [if_neg tooLong]
          cases add with
          | true => exact ⟨_, rfl, rfl, { works with }⟩
          | false => exact ⟨_, rfl, rfl, { works with }⟩

private theorem nextOp_seek_refines {length value shift : Nat}
    (isBase : frame.base = base.length) (byte : UInt8)
    (isOp : work.op = .seek length value shift) :
    Program.Meets (Ready base frame place still work)
      (nextOp io byte place.blockEnd) (Worked base frame place still work byte)
      (fun _ _ =>
        io.Serves base → work.step base place.blockEnd byte = none) := by
  apply Program.meets_get_bind
  intro session starts
  obtain ⟨⟨packed, fits⟩, sameOp, works⟩ := starts
  have sameCursor := works.isCursor
  have endFits := packed.endFits
  simp only [u32Max] at endFits
  have baseLen := packed.steady.baseLen
  have baseFits := packed.steady.baseFits
  have isCursor := packed.isCursor
  rw [isOp] at fits
  obtain ⟨positive, bounded, valueFits, shiftFits⟩ := fits
  simp only [sameOp, isOp]
  intro state same
  subst same
  simp only [Worked, Program.exec_bind, leb128_exec, Work.step, isOp]
  cases grown : grow value shift byte with
  | none =>
      intro _
      rfl
  | some value =>
      have noOverflow : shift + 7 < 2 ^ 32 := by omega
      have valueFits := grow_lt valueFits grown
      have moves := unzigzag_bounds valueFits
      have inBase := packed.inBase
      simp only
      by_cases more : byte &&& 0x80 ≠ 0
      · simp only [if_pos more, add32_of_lt noOverflow,
          Program.exec_bind, Program.exec_pure]
        exact ⟨_, rfl, rfl, { works with }⟩
      · have cursorFits :
            -2 ^ 63 ≤ (work.cursor : Int) + unzigzag value ∧
              (work.cursor : Int) + unzigzag value < 2 ^ 63 := by
          omega
        have reachFits :
            -2 ^ 63 ≤
                (work.cursor : Int) + unzigzag value + length ∧
              (work.cursor : Int) + unzigzag value + length <
                2 ^ 63 := by
          omega
        simp only [if_neg more, sameCursor, i64_of_bounds cursorFits,
          i64_of_bounds reachFits, Program.exec_bind,
          Program.exec_pure, baseLen, isBase]
        by_cases outside : (work.cursor : Int) + unzigzag value < 0 ∨
            (base.length : Int) < (work.cursor : Int) + unzigzag value + length
        · simp only [if_pos outside, fail, Program.exec_throw]
          intro _
          trivial
        · have cast : ((work.cursor : Int) + unzigzag value) %
              2 ^ 32 = (work.cursor : Int) + unzigzag value := by
            omega
          simp only [if_neg outside, change, Program.exec_bind,
            Program.exec_modify, Program.exec_pure, cast]
          exact ⟨_, rfl, rfl, { works with isCursor := rfl }⟩

private theorem nextOp_add_refines {left : Nat} (faithful : io.Faithful base)
    (isBase : frame.base = base.length) (byte : UInt8) (isOp : work.op = .add left) :
    Program.Meets (Ready base frame place still work)
      (nextOp io byte place.blockEnd) (Worked base frame place still work byte)
      (fun _ _ =>
        io.Serves base → work.step base place.blockEnd byte = none) := by
  apply Program.meets_get_bind
  intro session starts
  obtain ⟨⟨packed, fits⟩, sameOp, works⟩ := starts
  have sameCursor := works.isCursor
  have baseFits := packed.steady.baseFits
  have isCursor := packed.isCursor
  rw [isOp] at fits
  obtain ⟨positive, bounded, reach⟩ := fits
  have inside : place.cursor < frame.base := by omega
  have room : place.output < place.blockEnd := by omega
  have noOverflow : session.applier.cursor + 1 < 2 ^ 32 := by omega
  simp only [sameOp, isOp]
  apply ((((baseByte_meets io inside).both
    (baseByte_refines faithful isBase inside)).starting
      ⟨packed, packed, works⟩).failing fun _ _ refused serves => absurd serves refused.2).bind
  intro original
  rw [add32_of_lt noOverflow, pure_bind]
  have moved : Program.Meets
      (fun state =>
        Packed frame place state ∧
          Works base frame.start still work state ∧ base[place.cursor]? = some original)
      (change fun applier =>
        { applier with cursor := session.applier.cursor + 1 } :
        Step Store Error Unit)
      (fun _ state =>
        (Packed frame { place with cursor := place.cursor + 1 } state ∧
          Works base frame.start still
            { work with cursor := work.cursor + 1 } state) ∧ base[work.cursor]? = some original)
      (fun _ _ => False) := by
    apply Program.meets_modify
    intro state held
    obtain ⟨stillPacked, stillWorks, found⟩ := held
    have sameHere : work.cursor = place.cursor := by omega
    rw [← sameHere] at found
    refine ⟨⟨?_, { stillWorks with isCursor := ?_ }⟩, found⟩
    · exact
        { stillPacked with
          steady := { stillPacked.steady with }
          isCursor := by simp only [isCursor]
          inBase := by
            simp only
            omega }
    · simp only [sameCursor]
  apply (moved.failing fun _ _ never => never.elim).bind_known
  intro _ found
  have movedRoom :
      ({ place with cursor := place.cursor + 1 } : Place).output <
        ({ place with cursor := place.cursor + 1 } : Place).blockEnd :=
    room
  apply ((emit_refines (original + byte) movedRoom).failing
    fun _ _ lapsed serves => absurd serves lapsed).bind
  intro _
  have isStep : work.step base place.blockEnd byte =
      some
        { op := if left = 1 then .tag else .add (left - 1)
          cursor := work.cursor + 1
          made := work.made ++ [original + byte] } := by
    simp only [Work.step, isOp, found]
  by_cases last : left = 1
  · rw [if_pos last] at isStep ⊢
    intro state stillWorks
    exact ⟨_, isStep, rfl, { stillWorks with }⟩
  · rw [if_neg last] at isStep ⊢
    have noUnderflow : 1 ≤ left := by omega
    rw [subtract_of_le noUnderflow]
    intro state stillWorks
    exact ⟨_, isStep, rfl, { stillWorks with }⟩

private theorem nextOp_insert_refines {left : Nat} (byte : UInt8)
    (isOp : work.op = .insert left) :
    Program.Meets (Ready base frame place still work)
      (nextOp io byte place.blockEnd) (Worked base frame place still work byte)
      (fun _ _ =>
        io.Serves base → work.step base place.blockEnd byte = none) := by
  apply Program.meets_get_bind
  intro session starts
  obtain ⟨⟨packed, fits⟩, sameOp, works⟩ := starts
  rw [isOp] at fits
  obtain ⟨positive, bounded⟩ := fits
  have room : place.output < place.blockEnd := by omega
  simp only [sameOp, isOp]
  apply (((emit_refines byte room).starting
    ⟨packed, works⟩).failing fun _ _ lapsed serves =>
      absurd serves lapsed).bind
  intro _
  have isStep : work.step base place.blockEnd byte =
      some
        { work with
          op := if left = 1 then .tag else .insert (left - 1)
          made := work.made ++ [byte] } := by
    simp only [Work.step, isOp]
  by_cases last : left = 1
  · rw [if_pos last] at isStep ⊢
    intro state stillWorks
    exact ⟨_, isStep, rfl, { stillWorks with }⟩
  · rw [if_neg last] at isStep ⊢
    have noUnderflow : 1 ≤ left := by omega
    rw [subtract_of_le noUnderflow]
    intro state stillWorks
    exact ⟨_, isStep, rfl, { stillWorks with }⟩

theorem nextOp_refines (faithful : io.Faithful base)
    (isBase : frame.base = base.length) (byte : UInt8) :
    Program.Meets (Ready base frame place still work)
      (nextOp io byte place.blockEnd) (Worked base frame place still work byte)
      (fun _ _ =>
        io.Serves base → work.step base place.blockEnd byte = none) := by
  cases isOp : work.op with
  | tag => exact nextOp_tag_refines byte isOp
  | len add value shift => exact nextOp_len_refines byte isOp
  | seek length value shift => exact nextOp_seek_refines isBase byte isOp
  | add left => exact nextOp_add_refines faithful isBase byte isOp
  | insert left => exact nextOp_insert_refines byte isOp

/-! ## Unpacking -/

/-- A session that unpacked these bytes, between two of them. -/
structure Unpacks (base : List UInt8) (start offset bits : Nat)
    (work : Work) (past : List UInt8) (session : Session Store) : Prop where
  works : Works base start session.applier.still work session
  isOp : session.applier.op = work.op
  rings : Lzss.Rings session.applier.window session.applier.windowPos past
  isBits : session.applier.bits = bits
  isOffset : session.applier.patchOffset = offset

variable {offset bits blockEnd bitCount : Nat} {past : List UInt8}

theorem decoded_refines (faithful : io.Faithful base)
    (isBase : frame.base = base.length) (byte : UInt8) :
    Program.Meets
      (fun session =>
        Steps frame blockEnd bitCount session ∧
          Unpacks base frame.start offset bits work past session)
      (decoded io byte blockEnd)
      (fun _ session =>
        ∃ reached, work.step base blockEnd byte = some reached ∧
          Unpacks base frame.start offset bits reached (byte :: past) session)
      (fun _ _ =>
        io.Serves base → work.step base blockEnd byte = none) := by
  apply Program.meets_get_bind
  intro session starts
  obtain ⟨⟨place, rfl, rfl, packed, fits⟩, unpacks⟩ := starts
  have inWindow := packed.inWindow
  rw [unpacks.isOp] at fits
  simp only [dif_pos inWindow]
  have stored : Program.Meets (fun start => start = session)
      (change fun applier =>
        { applier with
          window :=
            applier.window.set session.applier.windowPos byte inWindow
          windowPos := (session.applier.windowPos + 1) % lzssWindow } :
        Step Store Error Unit)
      (fun _ =>
        Ready base frame place
          ⟨offset, bits,
            session.applier.window.set session.applier.windowPos byte inWindow,
            (session.applier.windowPos + 1) % lzssWindow⟩
          work)
      (fun _ _ => False) := by
    apply Program.meets_modify
    intro state same
    subst same
    refine ⟨⟨?_, fits⟩, unpacks.isOp, { unpacks.works with isStill := ?_ }⟩
    · exact
        { packed with
          steady := { packed.steady with }
          inWindow := Nat.mod_lt _ (by decide) }
    · simp only [DeltaApplier.still, unpacks.isOffset, unpacks.isBits]
  apply (stored.failing fun _ _ never => never.elim).bind
  intro _
  apply (nextOp_refines faithful isBase byte).bind
  intro op
  apply Program.meets_modify
  intro state held
  obtain ⟨reached, isStep, isOp, works⟩ := held
  have isStill := works.isStill
  simp only [DeltaApplier.still, Still.mk.injEq] at isStill
  obtain ⟨sameOffset, sameBits, sameWindow, samePos⟩ := isStill
  refine ⟨reached, isStep, { works with isStill := rfl }, isOp.symm, ?_, sameBits, sameOffset⟩
  simp only [sameWindow, samePos]
  exact unpacks.rings.store inWindow byte

/-- The session goes on unpacking where the decoder does. -/
def Follows (base : List UInt8) (frame : Frame)
    (blockEnd bitCount offset bits : Nat) (work : Work) (past : List UInt8)
    (session : Session Store) : Prop :=
  Steps frame blockEnd bitCount session ∧ Unpacks base frame.start offset bits work past session

theorem decoded_follows (faithful : io.Faithful base)
    (isBase : frame.base = base.length) (byte : UInt8) :
    Program.Meets
      (Follows base frame blockEnd bitCount offset bits work past)
      (decoded io byte blockEnd)
      (fun _ session =>
        ∃ reached, work.step base blockEnd byte = some reached ∧
          Follows base frame blockEnd bitCount offset bits reached (byte :: past) session)
      (fun _ _ =>
        io.Serves base → work.step base blockEnd byte = none) := by
  apply ((decoded_meets io byte blockEnd bitCount).both
    (decoded_refines faithful isBase byte)).weaken
  · intro session follows
    exact ⟨follows.1, follows⟩
  · intro _ session held
    obtain ⟨steps, reached, isStep, unpacks⟩ := held
    exact ⟨reached, isStep, steps, unpacks⟩
  · intro _ _ refused
    exact refused.2

theorem windowByte_follows {distance : Nat} (positive : 1 ≤ distance)
    (near : distance ≤ lzssWindow) :
    Program.Meets
      (Follows base frame blockEnd bitCount offset bits work past)
      (windowByte distance : Step Store Error UInt8)
      (fun byte session =>
        Follows base frame blockEnd bitCount offset bits work past session ∧
          byte = Lzss.byteBack past distance)
      (fun _ _ => False) := by
  intro session follows
  have noUnderflow : distance ≤ session.applier.windowPos + lzssWindow := by
    omega
  have found := follows.2.rings distance positive near
  simp only [windowByte, Program.exec_bind, Program.exec_get,
    subtract_of_le noUnderflow, Program.exec_pure, found]
  exact ⟨follows, trivial⟩

/-- A copy unpacks the bytes it stands for, one after the other. -/
theorem copy_follows (faithful : io.Faithful base)
    (isBase : frame.base = base.length) {distance : Nat}
    (positive : 1 ≤ distance) (near : distance ≤ lzssWindow) (count : Nat) :
    Program.Meets
      (Follows base frame blockEnd bitCount offset bits work past)
      (Program.iterate
        (do
          let byte ← windowByte distance
          decoded io byte blockEnd) count)
      (fun _ session =>
        ∃ reached,
          work.run base blockEnd (Lzss.copied past distance count) =
              some reached ∧
            Follows base frame blockEnd bitCount offset bits reached
              ((Lzss.copied past distance count).reverse ++ past) session)
      (fun _ _ =>
        io.Serves base →
          work.run base blockEnd (Lzss.copied past distance count) =
            none) := by
  induction count generalizing work past with
  | zero =>
      apply Program.meets_pure
      intro session held
      exact ⟨work, rfl, held⟩
  | succ count ih =>
      rw [Program.iterate, bind_assoc]
      apply ((windowByte_follows positive near).failing fun _ _ never => never.elim).bind_known
      intro byte isByte
      rw [isByte]
      apply ((decoded_follows faithful isBase (Lzss.byteBack past distance)).failing _).bind
      · intro _ session held
        obtain ⟨reached, isStep, follows⟩ := held
        apply (ih.weaken (fun _ same => same) _ _) session
          follows
        · intro _ state later
          obtain ⟨last, isRun, stillFollows⟩ := later
          refine ⟨last, ?_, ?_⟩
          · simp only [Lzss.copied, Work.run, isStep, isRun]
          · simpa [Lzss.copied] using stillFollows
        · intro _ _ stopped serves
          simp only [Lzss.copied, Work.run, isStep, stopped serves]
      · intro _ _ stopped serves
        simp only [Lzss.copied, Work.run, stopped serves]

theorem takeBits_follows {count : Nat} (enough : count ≤ bitCount) (short : bitCount < 32) :
    Program.Meets
      (Follows base frame blockEnd bitCount offset bits work past)
      (takeBits count : Step Store Error Nat)
      (fun field session =>
        Follows base frame blockEnd (bitCount - count) offset bits work past
            session ∧
          field = ofBits ((bitsOf bitCount bits).take count))
      (fun _ _ => False) := by
  intro session follows
  obtain ⟨steps, unpacks⟩ := follows
  have isCount := steps.isBitCount
  have enoughHere : count ≤ session.applier.bitCount := by omega
  have shortHere : session.applier.bitCount - count < 32 := by omega
  have meets : Program.Meets (Steps frame blockEnd bitCount)
      (takeBits count : Step Store Error Nat) _ (Refused frame) :=
    takeBits_meets enough short
  have taken := meets session steps
  simp only [takeBits, change, Program.exec_bind, Program.exec_get,
    subtract_of_le enoughHere, Program.exec_pure, Program.exec_modify,
    shiftRight32_of_lt shortHere] at taken ⊢
  have mask : (1 <<< count) - 1 = 2 ^ count - 1 := by
    rw [Nat.shiftLeft_eq, Nat.one_mul]
  refine ⟨⟨taken.1, { unpacks with works := ?_ }⟩, ?_⟩
  · exact { unpacks.works with isStill := rfl }
  · rw [take_bitsOf enough, ofBits_bitsOf, mask,
      Nat.and_two_pow_sub_one_eq_mod, unpacks.isBits, isCount]

/-- The session unpacked some items and has these bits left. -/
def Unpacked (base : List UInt8) (frame : Frame)
    (blockEnd offset bits : Nat) (work : Work) (past : List UInt8)
    (items : List Lzss.Item × List Bool) (session : Session Store) : Prop :=
  ∃ reached left,
    work.run base blockEnd (Lzss.expand past items.1) = some reached ∧
      bitsOf left bits = items.2 ∧
        Follows base frame blockEnd left offset bits reached
          ((Lzss.expand past items.1).reverse ++ past) session

/-- The session unpacked the bytes of one item and has this many bits left. -/
def Expanded (base : List UInt8) (frame : Frame)
    (blockEnd left offset bits : Nat) (work : Work) (past : List UInt8)
    (item : Lzss.Item) (session : Session Store) : Prop :=
  ∃ reached,
    work.run base blockEnd (item.expand past) = some reached ∧
      Follows base frame blockEnd left offset bits reached
        ((item.expand past).reverse ++ past) session

/-- A program that unpacks one item, and then one that unpacks the others. -/
private theorem item_bind {bits bitCount left : Nat} {item : Lzss.Item}
    (taken : Lzss.takeItem lzssShape (bitsOf bitCount bits) = some (item, bitsOf left bits))
    {before : Session Store → Prop} {first next : Step Store Error Unit}
    (one : Program.Meets before first
      (fun _ => Expanded base frame blockEnd left offset bits work past item)
      (fun _ _ =>
        io.Serves base → work.run base blockEnd (item.expand past) = none))
    (others : ∀ (reached : Work) (past : List UInt8),
      Program.Meets
        (Follows base frame blockEnd left offset bits reached past) next
        (fun _ session =>
          Unpacked base frame blockEnd offset bits reached past
            (Lzss.takeItems lzssShape (bitsOf left bits)) session)
        (fun _ _ =>
          io.Serves base →
            reached.run base blockEnd
              (Lzss.expand past (Lzss.takeItems lzssShape (bitsOf left bits)).1) =
              none)) :
    Program.Meets before (first >>= fun _ => next)
      (fun _ session =>
        Unpacked base frame blockEnd offset bits work past
          (Lzss.takeItems lzssShape (bitsOf bitCount bits)) session)
      (fun _ _ =>
        io.Serves base →
          work.run base blockEnd
            (Lzss.expand past (Lzss.takeItems lzssShape (bitsOf bitCount bits)).1) =
            none) := by
  rw [Lzss.takeItems_of_some lzssShape taken]
  simp only [Unpacked, Lzss.expand, Work.run_append]
  apply (one.failing _).bind
  · intro _ session held
    obtain ⟨reached, isRun, follows⟩ := held
    apply ((others reached _).weaken (fun _ same => same) _ _) session
      follows
    · intro _ state later
      obtain ⟨last, stillLeft, restRun, isLeft, stillFollows⟩ := later
      refine ⟨last, stillLeft, ?_, isLeft, ?_⟩
      · rw [isRun]
        exact restRun
      · simpa [List.append_assoc] using stillFollows
    · intro _ _ stopped serves
      rw [isRun]
      exact stopped serves
  · intro _ _ stopped serves
    rw [stopped serves]
    rfl

private theorem takeItem_literal {rest : Nat} (flag : bits.testBit rest = true)
    (eight : 8 ≤ rest) :
    Lzss.takeItem lzssShape (bitsOf (rest + 1) bits) =
      some
        (.literal (UInt8.ofNat (ofBits ((bitsOf rest bits).take 8))),
          bitsOf (rest - 8) bits) := by
  have many : ¬ (bitsOf rest bits).length < 8 := by
    rw [length_bitsOf]
    omega
  rw [bitsOf, flag, Lzss.takeItem, if_neg many, drop_bitsOf eight]

private theorem takeItem_copy {rest : Nat} (flag : bits.testBit rest = false)
    (ten : lzssIndexBits ≤ rest) (six : lzssLengthBits ≤ rest - lzssIndexBits) :
    Lzss.takeItem lzssShape (bitsOf (rest + 1) bits) =
      some
        (.copy (ofBits ((bitsOf rest bits).take lzssIndexBits) + 1)
          (ofBits ((bitsOf (rest - lzssIndexBits) bits).take lzssLengthBits) + lzssMinMatch),
          bitsOf (rest - lzssIndexBits - lzssLengthBits) bits) := by
  have width : lzssShape.indexBits + lzssShape.lengthBits = 16 := by decide
  have sameWidth : lzssIndexBits + lzssLengthBits = 16 := by decide
  have many : ¬ (bitsOf rest bits).length < 16 := by
    rw [length_bitsOf]
    omega
  have gone : (bitsOf rest bits).drop 16 =
      bitsOf (rest - lzssIndexBits - lzssLengthBits) bits := by
    rw [← sameWidth, ← List.drop_drop, drop_bitsOf ten, drop_bitsOf six]
  rw [bitsOf, flag, Lzss.takeItem, width, if_neg many, gone, ← drop_bitsOf ten]
  rfl

/-- The item whose bits are not all there yet. -/
private theorem takeItem_short {rest : Nat} (few : rest < if bits.testBit rest then 8 else 16) :
    Lzss.takeItem lzssShape (bitsOf (rest + 1) bits) = none := by
  have width : lzssShape.indexBits + lzssShape.lengthBits = 16 := by decide
  cases flag : bits.testBit rest with
  | true =>
      rw [flag, if_pos rfl, ← length_bitsOf rest bits] at few
      rw [bitsOf, flag, Lzss.takeItem, if_pos few]
  | false =>
      rw [flag, if_neg Bool.false_ne_true, ← length_bitsOf rest bits] at few
      rw [bitsOf, flag, Lzss.takeItem, width, if_pos few]

/-- A literal is the byte of its eight bits. -/
private theorem literal_follows (faithful : io.Faithful base)
    (isBase : frame.base = base.length) (eight : 8 ≤ bitCount) (short : bitCount < 32) :
    Program.Meets
      (Follows base frame blockEnd bitCount offset bits work past)
      (do
        let byte ← takeBits 8
        decoded io (UInt8.ofNat byte) blockEnd)
      (fun _ => Expanded base frame blockEnd (bitCount - 8) offset bits work past
        (.literal (UInt8.ofNat (ofBits ((bitsOf bitCount bits).take 8)))))
      (fun _ _ =>
        io.Serves base →
          work.run base blockEnd
            [UInt8.ofNat (ofBits ((bitsOf bitCount bits).take 8))] = none) := by
  apply ((takeBits_follows eight short).failing fun _ _ never => never.elim).bind_known
  intro field isField
  rw [isField]
  apply (decoded_follows faithful isBase _).weaken (fun _ same => same)
  · intro _ state held
    obtain ⟨reached, isStep, stillFollows⟩ := held
    refine ⟨reached, ?_, stillFollows⟩
    simp only [Lzss.Item.expand, Work.run, isStep]
  · intro _ _ stopped serves
    simp only [Work.run, stopped serves]

/-- A copy is read from its two fields, and unpacks what it stands for. -/
private theorem copyItem_follows (faithful : io.Faithful base)
    (isBase : frame.base = base.length) (ten : lzssIndexBits ≤ bitCount)
    (six : lzssLengthBits ≤ bitCount - lzssIndexBits) (short : bitCount < 32) :
    Program.Meets
      (Follows base frame blockEnd bitCount offset bits work past)
      (do
        let index ← takeBits lzssIndexBits
        let length ← takeBits lzssLengthBits
        Program.iterate
          (do
            let byte ← windowByte (index + 1)
            decoded io byte blockEnd)
          (length + lzssMinMatch))
      (fun _ => Expanded base frame blockEnd
        (bitCount - lzssIndexBits - lzssLengthBits) offset bits work past
        (.copy (ofBits ((bitsOf bitCount bits).take lzssIndexBits) + 1)
          (ofBits ((bitsOf (bitCount - lzssIndexBits) bits).take lzssLengthBits) +
            lzssMinMatch)))
      (fun _ _ =>
        io.Serves base →
          work.run base blockEnd
            (Lzss.copied past (ofBits ((bitsOf bitCount bits).take lzssIndexBits) + 1)
              (ofBits ((bitsOf (bitCount - lzssIndexBits) bits).take lzssLengthBits) +
                lzssMinMatch)) = none) := by
  have near : ofBits ((bitsOf bitCount bits).take lzssIndexBits) + 1 ≤ lzssWindow := by
    rw [take_bitsOf ten, ofBits_bitsOf]
    exact Nat.mod_lt _ (Nat.two_pow_pos lzssIndexBits)
  apply ((takeBits_follows ten short).failing fun _ _ never => never.elim).bind_known
  intro index isIndex
  apply ((takeBits_follows six (by omega)).failing
    fun _ _ never => never.elim).bind_known
  intro length isLength
  rw [isIndex, isLength]
  exact copy_follows faithful isBase (Nat.succ_le_succ (Nat.zero_le _)) near _

/-- Unpacking follows the items that are there in full, and leaves the bits
of the next one. -/
theorem decodeItems_follows (faithful : io.Faithful base)
    (isBase : frame.base = base.length) {turns : Nat}
    (enough : bitCount < turns) (short : bitCount < 32) :
    Program.Meets
      (Follows base frame blockEnd bitCount offset bits work past)
      (decodeItems io blockEnd turns)
      (fun _ session =>
        Unpacked base frame blockEnd offset bits work past
          (Lzss.takeItems lzssShape (bitsOf bitCount bits)) session)
      (fun _ _ =>
        io.Serves base →
          work.run base blockEnd
            (Lzss.expand past (Lzss.takeItems lzssShape (bitsOf bitCount bits)).1) =
            none) := by
  induction turns generalizing bitCount work past with
  | zero => exact False.elim <| Nat.not_lt_zero bitCount enough
  | succ turns ih =>
      apply Program.meets_get_bind
      intro session follows
      have isCount := follows.1.isBitCount
      have isBits := follows.2.isBits
      have stays
          (none : Lzss.takeItem lzssShape (bitsOf bitCount bits) = none) :
          Unpacked base frame blockEnd offset bits work past
            (Lzss.takeItems lzssShape (bitsOf bitCount bits)) session := by
        rw [Lzss.takeItems_of_none lzssShape none]
        exact ⟨work, bitCount, rfl, rfl, follows⟩
      simp only [isCount, isBits]
      cases bitCount with
      | zero =>
          apply Program.meets_pure
          intro state same
          subst same
          exact stays rfl
      | succ rest =>
          have topFits : rest + 1 - 1 < 32 := by omega
          rw [if_neg (Nat.succ_ne_zero rest), shiftRight32_of_lt topFits,
            pure_bind, shiftRight_and_one, Nat.add_sub_cancel]
          have fewer : Program.Meets (fun start => start = session)
              (change fun applier => { applier with bitCount := rest } :
                Step Store Error Unit)
              (fun _ reached =>
                Follows base frame blockEnd rest offset bits work past reached)
              (fun _ _ => False) := by
            apply Program.meets_modify
            intro state same
            subst same
            exact
              ⟨recount_of_steps follows.1 rest,
                { follows.2 with
                  works := { follows.2.works with isStill := rfl } }⟩
          cases flag : bits.testBit rest with
          | true =>
              simp only [if_true]
              by_cases incomplete : rest + 1 < 1 + 8
              · rw [if_pos incomplete]
                apply Program.meets_pure
                intro state same
                subst same
                apply stays
                apply takeItem_short
                rw [flag, if_pos rfl]
                omega
              · rw [if_neg incomplete]
                have eight : 8 ≤ rest := by omega
                apply (fewer.failing fun _ _ never => never.elim).bind
                intro _
                rw [← bind_assoc]
                apply item_bind (takeItem_literal flag eight)
                · exact literal_follows faithful isBase eight (by omega)
                · intro reached past
                  exact ih (by omega) (by omega)
          | false =>
              have sameWidth : lzssIndexBits + lzssLengthBits = 16 := by decide
              simp only [Bool.false_eq_true, if_false, sameWidth]
              by_cases incomplete : rest + 1 < 1 + 16
              · rw [if_pos incomplete]
                apply Program.meets_pure
                intro state same
                subst same
                apply stays
                apply takeItem_short
                rw [flag, if_neg Bool.false_ne_true]
                omega
              · rw [if_neg incomplete]
                have ten : lzssIndexBits ≤ rest := by
                  simp only [lzssIndexBits]
                  omega
                have six : lzssLengthBits ≤ rest - lzssIndexBits := by
                  simp only [lzssIndexBits, lzssLengthBits]
                  omega
                apply (fewer.failing fun _ _ never => never.elim).bind
                intro _
                have copied : Program.Meets
                    (Follows base frame blockEnd rest offset bits work past) _ _ _ :=
                  item_bind (takeItem_copy flag ten six)
                    (copyItem_follows faithful isBase ten six (by omega))
                    fun reached past => ih (by omega) (by omega)
                simpa only [bind_assoc] using copied

/-! ## Patches -/

/-- A session between two blocks that has made these bytes. -/
def Settled (base : List UInt8) (start : Nat) (made : List UInt8)
    (session : Session Store) : Prop :=
  ∃ still work, work.made = made ∧ Works base start still work session

/-- The session is where the decoder is, after this many bytes of the
patch. -/
def Refines (base : List UInt8) (frame : Frame) (offset : Nat)
    (decoder : Decoder) (session : Session Store) : Prop :=
  session.applier.patchOffset = offset % 2 ^ 32 ∧
    match decoder with
    | .header seen =>
        session.applier.stage = .header seen.length ∧
          session.applier.header.toList.take seen.length = seen ∧
            Settled base frame.start [] session
    | .blockHeader made seen =>
        session.applier.stage = .blockHeader seen.length ∧
          session.applier.header.toList.take seen.length = seen ∧
            Settled base frame.start made session
    | .body packedLeft blockEnd work past waiting =>
        session.applier.stage = .body packedLeft blockEnd ∧
          ∃ bits bitCount, bitCount ≤ 16 ∧ bitsOf bitCount bits = waiting ∧
            Follows base frame blockEnd bitCount (offset % 2 ^ 32) bits work past session
    | .done made =>
        session.applier.stage = .done ∧ Settled base frame.start made session

/-- A report is the checkpoint of the decoder, which is at the end of a
block. -/
def Reports (frame : Frame) (offset : Nat) (reported : Option Checkpoint)
    (decoder : Decoder) : Prop :=
  ∀ point, reported = some point →
    point = ⟨offset % 2 ^ 32, decoder.made.length⟩ ∧ decoder = .after frame.target decoder.made

private theorem settled_of_fields {start : Nat} {made : List UInt8}
    {session : Session Store} (settled : Settled base start made session)
    {applier : DeltaApplier} (output : applier.output = session.applier.output)
    (out : applier.out = session.applier.out) (cursor : applier.cursor = session.applier.cursor)
    (cache : applier.cache = session.applier.cache)
    (cacheStart : applier.cacheStart = session.applier.cacheStart) :
    Settled base start made { session with applier } := by
  obtain ⟨_, work, isMade, works⟩ := settled
  refine ⟨applier.still, work, isMade, ?_⟩
  constructor
  · simp only [out, works.writes]
  · exact works.started
  · simp only [output, works.isOutput]
  · simp only [cursor, works.isCursor]
  · simp only [cache, cacheStart]
    exact works.cached
  · rfl

private theorem take_set {size index : Nat} (header : Vector UInt8 size)
    (inside : index < size) (byte : UInt8) :
    (header.set index byte inside).toList.take (index + 1) =
      header.toList.take index ++ [byte] := by
  have long : index < header.toList.length := by simp [inside]
  have front : (header.toList.take index).length = index := by
    simp
    omega
  rw [Vector.toList_set, List.set_eq_take_append_cons_drop, if_pos long,
    ← List.singleton_append, ← List.append_assoc]
  apply List.take_left'
  simp [front]

/-- Shifting in a byte appends its bits to those that wait. -/
private theorem bitsOf_fill {bitCount : Nat} (short : bitCount ≤ 16)
    (bits : Nat) (byte : UInt8) :
    bitsOf (bitCount + 8) ((bits <<< 8) % 2 ^ 32 ||| byte.toNat) =
      bitsOf bitCount bits ++ bitsOf 8 byte.toNat := by
  have small : byte.toNat < 2 ^ 8 := byte.toNat_lt
  rw [← bitsOf_shiftIn small]
  apply bitsOf_congr
  intro position below
  have inside : position < 32 := by omega
  rw [Nat.testBit_or, Nat.testBit_or, Nat.testBit_mod_two_pow]
  simp only [inside, decide_true, Bool.true_and]

private theorem taken_all {size count : Nat} (header : Vector UInt8 size)
    (all : size ≤ count) : header.toList.take count = header.toList := by
  apply List.take_of_length_le
  simpa using all

private theorem not_announces_iff {target : Nat} {seen : List UInt8} :
    (seen.take 4 ≠ deltaMagic ∨ seen[4]? ≠ some deltaVersion ∨
        (seen.drop 5).take 3 ≠ [0, 0, 0] ∨
          ofLittleEndian (seen.drop 8) ≠ target ∨ ofLittleEndian (seen.drop 8) = 0) ↔
      ¬ Announces target seen := by
  constructor
  · intro refused announces
    obtain ⟨magic, version, zeros, isTarget, positive⟩ := announces
    rcases refused with wrong | wrong | wrong | wrong | wrong
    · exact wrong magic
    · exact wrong version
    · exact wrong zeros
    · exact wrong isTarget
    · exact positive (isTarget.symm.trans wrong)
  · intro silent
    by_contra accepted
    simp only [not_or, Decidable.not_not] at accepted
    obtain ⟨magic, version, zeros, isTarget, positive⟩ := accepted
    rw [isTarget] at positive
    exact silent ⟨magic, version, zeros, isTarget, positive⟩

private theorem storeHeader_stores {index : Nat} (byte : UInt8)
    (inside : index < deltaHeaderLen) (session : Session Store)
    {failed : Halt Error → Session Store → Prop} :
    Program.Meets (fun start => start = session)
      (storeHeader index byte : Step Store Error Unit)
      (fun _ reached =>
        reached =
          { session with
            applier :=
              { session.applier with
                header := session.applier.header.set index byte inside } })
      failed := by
  rw [storeHeader, dif_pos inside]
  apply Program.meets_modify
  intro start same
  rw [same]

/-- The start of a block's packed bytes. -/
private theorem follows_openBlock (isBase : frame.base = base.length)
    {made : List UInt8} {session : Session Store} (between : Between frame session)
    (room : session.applier.output < frame.target)
    (settled : Settled base frame.start made session) (packedLeft : Nat)
    {baseOffset : Nat} (inBase : baseOffset ≤ base.length) :
    (session.applier.openBlock packedLeft baseOffset).stage =
        .body packedLeft (min (made.length + deltaBlockOut) frame.target) ∧
      Follows base frame (min (made.length + deltaBlockOut) frame.target) 0
        session.applier.patchOffset 0 ⟨.tag, baseOffset, made⟩ []
        { session with
          applier := session.applier.openBlock packedLeft baseOffset } := by
  obtain ⟨_, work, isMade, works⟩ := settled
  have targetLen := between.steady.targetLen
  have targetFits := between.steady.targetFits
  have baseLen := between.steady.baseLen
  have isOutput := works.isOutput
  rw [isMade] at isOutput
  have isEnd :
      min (saturatingAdd session.applier.output deltaBlockOut)
          session.applier.targetLen =
        min (made.length + deltaBlockOut) frame.target := by
    rw [saturatingAdd, isOutput, targetLen]
    generalize u32Max = top at *
    generalize deltaBlockOut = size at *
    omega
  have inBaseHere : baseOffset ≤ session.applier.baseLen := by omega
  have steps := steps_openBlock between room packedLeft inBaseHere
  rw [isEnd] at steps
  have stage : (session.applier.openBlock packedLeft baseOffset).stage =
      .body packedLeft
        (min (made.length + deltaBlockOut) frame.target) := by
    simp only [DeltaApplier.openBlock, isEnd]
  refine ⟨stage, steps, ?_, rfl, Lzss.rings_zeroed lzssWindow, rfl, rfl⟩
  rw [← isMade]
  exact
    { writes := works.writes
      started := works.started
      isOutput := works.isOutput
      isCursor := rfl
      cached := works.cached
      isStill := rfl }

/-- The decoder takes a byte, and the applier is where it is then. -/
def Advances (base : List UInt8) (frame : Frame) (offset : Nat)
    (decoder : Decoder) (byte : UInt8) (reported : Option Checkpoint)
    (session : Session Store) : Prop :=
  ∃ reached, decoder.step base frame.target byte = some reached ∧
    Refines base frame offset reached session ∧ Reports frame offset reported reached

/-- A byte of the header. -/
private theorem pushHeader_refines {offset : Nat} {seen : List UInt8} (byte : UInt8)
    {session : Session Store} (waits : Waiting frame session)
    (refines : Refines base frame offset (Decoder.header seen) session) :
    Program.Meets (fun start => start = session)
      (pushHeader seen.length byte : Step Store Error (Option Checkpoint))
      (Advances base frame offset (Decoder.header seen) byte)
      (fun _ _ => io.Serves base →
        (Decoder.header seen).step base frame.target byte = none) := by
  obtain ⟨isOffset, stage, taken, settled⟩ := refines
  simp only [Waiting, stage] at waits
  obtain ⟨between, within, _⟩ := waits
  have targetLen := between.steady.targetLen
  apply (storeHeader_stores byte within session).bind
  intro _
  by_cases more : seen.length + 1 < deltaHeaderLen
  · rw [if_pos more]
    intro state same
    subst same
    have isStep : (Decoder.header seen).step base frame.target byte =
        some (.header (seen ++ [byte])) := by
      simp [Decoder.step, more]
    refine ⟨_, isStep, ⟨isOffset, ?_, ?_, ?_⟩, ?_⟩
    · simp
    · rw [List.length_append, List.length_singleton, take_set, taken]
    · exact settled_of_fields settled rfl rfl rfl rfl rfl
    · intro point none
      cases none
  · rw [if_neg more]
    apply Program.meets_get_bind
    intro state same
    subst same
    have isHeader :
        (session.applier.header.set seen.length byte within).toList =
          seen ++ [byte] := by
      rw [← taken_all (session.applier.header.set seen.length byte
        within) (Nat.le_of_not_lt more), take_set, taken]
    have noMore : ¬ (seen ++ [byte]).length < deltaHeaderLen := by
      simpa using more
    simp only [isHeader, targetLen]
    by_cases announces : Announces frame.target (seen ++ [byte])
    · have isStep : (Decoder.header seen).step base frame.target byte =
          some (.blockHeader [] []) := by
        simp only [Decoder.step, if_neg noMore, if_pos announces]
      rw [if_neg fun refused => not_announces_iff.mp refused announces]
      intro state same
      subst same
      refine ⟨_, isStep, ⟨isOffset, rfl, rfl, ?_⟩, ?_⟩
      · exact settled_of_fields settled rfl rfl rfl rfl rfl
      · intro point none
        cases none
    · rw [if_pos (not_announces_iff.mpr announces)]
      apply Program.meets_throw
      intro _ _ _
      simp only [Decoder.step, if_neg noMore, if_neg announces]

/-- A byte of a block header. -/
private theorem pushBlockHeader_refines (isBase : frame.base = base.length)
    {offset : Nat} {made seen : List UInt8} (byte : UInt8)
    {session : Session Store} (waits : Waiting frame session)
    (refines : Refines base frame offset (Decoder.blockHeader made seen) session) :
    Program.Meets (fun start => start = session)
      (pushBlockHeader seen.length byte : Step Store Error (Option Checkpoint))
      (Advances base frame offset (Decoder.blockHeader made seen) byte)
      (fun _ _ => io.Serves base →
        (Decoder.blockHeader made seen).step base frame.target byte = none) := by
  obtain ⟨isOffset, stage, taken, settled⟩ := refines
  simp only [Waiting, stage] at waits
  obtain ⟨between, within, room⟩ := waits
  have targetLen := between.steady.targetLen
  have targetFits := between.steady.targetFits
  have baseLen := between.steady.baseLen
  have inHeader : seen.length < deltaHeaderLen :=
    Nat.lt_trans within (by decide)
  apply (storeHeader_stores byte inHeader session).bind
  intro _
  by_cases more : seen.length + 1 < deltaBlockHeaderLen
  · rw [if_pos more]
    intro state same
    subst same
    have isStep : (Decoder.blockHeader made seen).step base frame.target
        byte = some (.blockHeader made (seen ++ [byte])) := by
      simp [Decoder.step, more]
    refine ⟨_, isStep, ⟨isOffset, ?_, ?_, ?_⟩, ?_⟩
    · simp
    · rw [List.length_append, List.length_singleton, take_set, taken]
    · exact settled_of_fields settled rfl rfl rfl rfl rfl
    · intro point none
      cases none
  · rw [if_neg more]
    apply Program.meets_get_bind
    intro state same
    subst same
    have eight : seen.length + 1 = 8 := by
      simp only [deltaBlockHeaderLen] at within more
      omega
    have isHeader :
        (session.applier.header.set seen.length byte
          inHeader).toList.take 8 = seen ++ [byte] := by
      rw [← eight, take_set, taken]
    have packedLeft :
        (session.applier.header.set seen.length byte
          inHeader).toList.take 4 = (seen ++ [byte]).take 4 := by
      rw [← isHeader, List.take_take]
      rfl
    have baseOffset :
        ((session.applier.header.set seen.length byte
          inHeader).toList.drop 4).take 4 =
            (seen ++ [byte]).drop 4 := by
      rw [← isHeader, List.drop_take]
    have noMore : ¬ (seen ++ [byte]).length < deltaBlockHeaderLen := by
      simpa using more
    have sameBase : base.length = session.applier.baseLen := by
      rw [baseLen, isBase]
    simp only [packedLeft, baseOffset]
    by_cases refused :
        ofLittleEndian ((seen ++ [byte]).take 4) = 0 ∨
          session.applier.baseLen < ofLittleEndian ((seen ++ [byte]).drop 4)
    · rw [if_pos refused]
      apply Program.meets_throw
      intro _ _ _
      simp only [Decoder.step, if_neg noMore, sameBase, if_pos refused]
    · rw [if_neg refused]
      intro state same
      subst same
      have isStep : (Decoder.blockHeader made seen).step base
          frame.target byte =
            some (.body (ofLittleEndian ((seen ++ [byte]).take 4))
              (min (made.length + deltaBlockOut) frame.target)
              ⟨.tag, ofLittleEndian ((seen ++ [byte]).drop 4), made⟩
              [] []) := by
        simp only [Decoder.step, if_neg noMore, sameBase, if_neg refused]
      simp only [not_or, Nat.not_lt] at refused
      have stored : Between frame
          { session with
            applier :=
              { session.applier with
                header := session.applier.header.set seen.length byte inHeader } } :=
        between_of_fields between rfl rfl rfl rfl rfl rfl
      have opened := follows_openBlock isBase stored room
        (settled_of_fields settled rfl rfl rfl rfl rfl)
        (ofLittleEndian ((seen ++ [byte]).take 4))
        (sameBase ▸ refused.2)
      refine ⟨_, isStep, ⟨isOffset, opened.1, 0, 0, Nat.zero_le 16, rfl, ?_⟩, ?_⟩
      · rw [← isOffset]
        exact opened.2
      · intro point none
        cases none

/-- A block ends where its bytes were to end, between two instructions, with
less than a byte of padding. -/
private theorem endBlock_refines {left : Nat} {session : Session Store}
    (steps : Steps frame blockEnd left session)
    (unpacks : Unpacks base frame.start (offset % 2 ^ 32) bits work past session) :
    Program.Meets (fun start => start = session)
      (endBlock io blockEnd : Step Store Error (Option Checkpoint))
      (fun reported final =>
        (work.made.length = blockEnd ∧ work.op = .tag ∧ left < 8) ∧
          Refines base frame offset (.after frame.target work.made) final ∧
            Reports frame offset reported (.after frame.target work.made))
      (fun _ _ => io.Serves base →
        ¬ (work.made.length = blockEnd ∧ work.op = .tag ∧ left < 8)) := by
  apply Program.meets_get_bind
  rintro session rfl
  obtain ⟨place, isEnd, isPlace, packed, fits⟩ := steps
  have sameEnd : (session.applier.output ≠ blockEnd ∨
      session.applier.op ≠ .tag ∨ 8 ≤ session.applier.bitCount) ↔
        ¬ (work.made.length = blockEnd ∧ work.op = .tag ∧ left < 8) := by
    rw [unpacks.works.isOutput, unpacks.isOp, packed.isBitCount, isPlace]
    simp only [not_and_or, Nat.not_lt, ne_eq]
  by_cases whole : work.made.length = blockEnd ∧ work.op = .tag ∧ left < 8
  · dsimp only
    rw [if_neg fun broken => sameEnd.mp broken whole]
    have flushed := ((flush_meets io).both flush_refines).starting
      ⟨packed.toInBlock, packed.toInBlock, unpacks.works⟩
    apply (flushed.failing fun _ _ lapsed serves =>
      absurd serves lapsed.2).bind
    intro _ final held
    have works := held.2
    have isStill := works.isStill
    simp only [DeltaApplier.still, Still.mk.injEq] at isStill
    have made := unpacks.works.isOutput
    have targetLen := packed.steady.targetLen
    refine ⟨whole, ⟨?_, ?_⟩, ?_⟩
    · exact isStill.1.trans unpacks.isOffset
    · have noBytes : written [.block
          ⟨session.applier.patchOffset, session.applier.output⟩] = [] :=
        rfl
      have settled : Settled base frame.start work.made
          { final with
            applier :=
              { final.applier with
                stage :=
                  if session.applier.output = session.applier.targetLen
                  then .done else .blockHeader 0 }
            log := final.log ++
              [.block ⟨session.applier.patchOffset, session.applier.output⟩] } := by
        refine ⟨final.applier.still, work, rfl,
          { works with writes := ?_, isStill := rfl }⟩
        rw [written_append, noBytes, List.append_nil]
        exact works.writes
      by_cases finished : work.made.length = frame.target
      · simp only [Decoder.after, if_pos finished]
        refine ⟨?_, settled⟩
        simp only [made, targetLen, if_pos finished]
      · simp only [Decoder.after, if_neg finished]
        refine ⟨?_, rfl, settled⟩
        simp only [made, targetLen, if_neg finished]
        rfl
    · intro point isPoint
      simp only [Option.some.injEq] at isPoint
      rw [← isPoint, Decoder.made_after, made, unpacks.isOffset]
      exact ⟨rfl, rfl⟩
  · dsimp only
    rw [if_pos (sameEnd.mpr whole)]
    intro _ _ _
    exact whole

/-- A packed byte of a block. -/
private theorem pushBody_refines (faithful : io.Faithful base)
    (isBase : frame.base = base.length) {offset packedLeft blockEnd : Nat} {work : Work}
    {past : List UInt8} {waiting : List Bool} (byte : UInt8)
    {session : Session Store} (waits : Waiting frame session)
    (refines : Refines base frame offset (.body packedLeft blockEnd work past waiting)
      session) :
    Program.Meets (fun start => start = session)
      (pushBody io packedLeft blockEnd byte : Step Store Error (Option Checkpoint))
      (Advances base frame offset (.body packedLeft blockEnd work past waiting) byte)
      (fun _ _ => io.Serves base →
        (Decoder.body packedLeft blockEnd work past waiting).step base frame.target byte =
          none) := by
  obtain ⟨isOffset, stage, bits, bitCount, short, isWaiting, follows⟩ := refines
  simp only [Waiting, stage] at waits
  obtain ⟨positive, _⟩ := waits
  have isCount := follows.1.isBitCount
  have isBits := follows.2.isBits
  have noOverflow : session.applier.bitCount + 8 < 2 ^ 32 := by omega
  apply Program.meets_get_bind
  rintro session rfl
  rw [shiftLeft32_of_lt (by decide), pure_bind, add32_of_lt noOverflow,
    pure_bind]
  have filled : Program.Meets (fun start => start = session)
      (change fun applier =>
        { applier with
          bits := (session.applier.bits <<< 8) % 2 ^ 32 ||| byte.toNat
          bitCount := session.applier.bitCount + 8 } :
        Step Store Error Unit)
      (fun _ reached =>
        Follows base frame blockEnd (session.applier.bitCount + 8)
          (offset % 2 ^ 32)
          ((session.applier.bits <<< 8) % 2 ^ 32 ||| byte.toNat) work past reached)
      (fun _ _ => False) := by
    apply Program.meets_modify
    intro state same
    subst same
    refine ⟨?_, ?_⟩
    · obtain ⟨place, isEnd, _, packed, fits⟩ := follows.1
      exact
        ⟨{ place with bitCount := state.applier.bitCount + 8 }, isEnd,
          rfl,
          { packed with
            steady := { packed.steady with }
            isBitCount := rfl },
          fits⟩
    · exact
        { follows.2 with
          works := { follows.2.works with isStill := rfl }
          isBits := rfl }
  apply (filled.failing fun _ _ never => never.elim).bind
  intro _
  have joined : bitsOf (session.applier.bitCount + 8)
      ((session.applier.bits <<< 8) % 2 ^ 32 ||| byte.toNat) =
        waiting ++ bitsOf 8 byte.toNat := by
    rw [isCount, isBits, bitsOf_fill short, isWaiting]
  apply ((decodeItems_follows faithful isBase
    (Nat.lt_succ_self (session.applier.bitCount + 8)) (by omega)).failing _).bind
  · intro _
    rw [joined, subtract_of_le positive, pure_bind]
    intro state unpacked
    obtain ⟨reached, left, isRun, isLeft, stillFollows⟩ := unpacked
    obtain ⟨steps, unpacks⟩ := stillFollows
    have leftLength : left =
        (Lzss.takeItems lzssShape
          (waiting ++ bitsOf 8 byte.toNat)).2.length := by
      rw [← isLeft, length_bitsOf]
    have leftShort : left ≤ 16 := by
      rw [leftLength]
      exact Lzss.length_of_takeItem_none lzssShape (Lzss.takeItem_left lzssShape _)
    by_cases more : packedLeft - 1 ≠ 0
    · rw [if_pos more]
      have notLast : packedLeft ≠ 1 := by omega
      refine ⟨.body (packedLeft - 1) blockEnd reached
        ((Lzss.expand past (Lzss.takeItems lzssShape
          (waiting ++ bitsOf 8 byte.toNat)).1).reverse ++ past)
        (Lzss.takeItems lzssShape (waiting ++ bitsOf 8 byte.toNat)).2, ?_,
        ⟨unpacks.isOffset, rfl, _, left, leftShort, isLeft, ?_, ?_⟩, ?_⟩
      · simp only [Decoder.step, isRun, if_pos notLast]
      · obtain ⟨place, isEnd, isPlace, packed, fits⟩ := steps
        exact
          ⟨place, isEnd, isPlace,
            { packed with
              steady := { packed.steady with }
              unfinished := Stage.noConfusion },
            fits⟩
      · exact
          { unpacks with
            works := { unpacks.works with isStill := rfl } }
      · intro point none
        cases none
    · rw [if_neg more]
      have last : ¬ packedLeft ≠ 1 := by omega
      subst leftLength
      apply (endBlock_refines steps unpacks).weaken (fun _ same => same) _ _ state rfl
      · intro _ final ended
        obtain ⟨whole, refines, reports⟩ := ended
        refine ⟨_, ?_, refines, reports⟩
        simp only [Decoder.step, isRun, if_neg last, if_pos whole]
      · intro _ _ broken serves
        simp only [Decoder.step, isRun, if_neg last, if_neg (broken serves)]
  · intro _ _ stopped serves
    rw [joined] at stopped
    simp only [Decoder.step, stopped serves]

/-- The applier takes one byte of a patch as the decoder does. -/
theorem pushByte_refines (faithful : io.Faithful base)
    (isBase : frame.base = base.length) (decoder : Decoder) (offset : Nat) (byte : UInt8) :
    Program.Meets
      (fun session =>
        Waiting frame session ∧ Refines base frame offset decoder session)
      (pushByte io byte)
      (Advances base frame (offset + 1) decoder byte)
      (fun _ _ =>
        io.Serves base → decoder.step base frame.target byte = none) := by
  have advanced : Program.Meets
      (fun session =>
        Waiting frame session ∧ Refines base frame offset decoder session)
      (change fun applier =>
        { applier with
          patchOffset := (applier.patchOffset + 1) % 2 ^ 32 } :
        Step Store Error Unit)
      (fun _ session =>
        Waiting frame session ∧ Refines base frame (offset + 1) decoder session)
      (fun _ _ => False) := by
    apply Program.meets_modify
    intro session held
    obtain ⟨waits, isOffset, related⟩ := held
    have counts : (session.applier.patchOffset + 1) % 2 ^ 32 =
        (offset + 1) % 2 ^ 32 := by
      omega
    refine ⟨waiting_advance waits _, counts, ?_⟩
    cases decoder with
    | header seen =>
        obtain ⟨stage, taken, settled⟩ := related
        exact ⟨stage, taken, settled_of_fields settled rfl rfl rfl rfl rfl⟩
    | blockHeader made seen =>
        obtain ⟨stage, taken, settled⟩ := related
        exact ⟨stage, taken, settled_of_fields settled rfl rfl rfl rfl rfl⟩
    | body packedLeft blockEnd work past waiting =>
        obtain ⟨stage, bits, bitCount, short, isWaiting, steps, unpacks⟩ :=
          related
        exact
          ⟨stage, bits, bitCount, short, isWaiting, steps_advance steps _,
            { unpacks with
              works := { unpacks.works with isStill := rfl }
              isOffset := counts }⟩
    | done made =>
        obtain ⟨stage, settled⟩ := related
        exact ⟨stage, settled_of_fields settled rfl rfl rfl rfl rfl⟩
  apply (advanced.failing fun _ _ never => never.elim).bind
  intro _
  apply Program.meets_get_bind
  intro session held
  obtain ⟨waits, refines⟩ := held
  cases decoder with
  | header seen =>
      rw [refines.2.1]
      exact pushHeader_refines byte waits refines
  | blockHeader made seen =>
      rw [refines.2.1]
      exact pushBlockHeader_refines isBase byte waits refines
  | body packedLeft blockEnd work past waiting =>
      rw [refines.2.1]
      exact pushBody_refines faithful isBase byte waits refines
  | done made =>
      obtain ⟨_, stage, settled⟩ := refines
      rw [stage]
      apply Program.meets_throw
      intro _ _ _
      rfl

end Operations

end Ratspeak.Delta
