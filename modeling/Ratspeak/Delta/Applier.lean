import Mathlib.Data.Int.Bitwise
import Ratspeak.Library.Bytes
import Ratspeak.Library.Lzss
import Ratspeak.Library.Programs

/-!
# The delta applier

A patch is a header and blocks.  The applier takes it in pieces of any size,
unpacks each block, runs the operations it holds against a base image, and
hands the reconstructed bytes to an adapter.  Integers of the source are
numbers here, and every place where they could overflow, underflow, be shifted
too far or index out of range stops with a fault, which no error of the
decoder is.

A session holds the applier, the store the adapter works on, and a log of what
the applier did to it.
-/

namespace Ratspeak.Delta

open Library

/-! ## The format -/

def deltaMagic : List UInt8 := [0x52, 0x53, 0x44, 0x50]
def deltaVersion : UInt8 := 1
def deltaHeaderLen : Nat := 12
def deltaBlockHeaderLen : Nat := 8

/-- The most output bytes of a block; the last one can be shorter. -/
def deltaBlockOut : Nat := 64 * 1024

def lzssIndexBits : Nat := 10
def lzssLengthBits : Nat := 6
def lzssMinMatch : Nat := 3
def lzssWindow : Nat := 1 <<< lzssIndexBits
def lzssMaxMatch : Nat := (1 <<< lzssLengthBits) + lzssMinMatch - 1
def opAdd : UInt8 := 0x01
def opInsert : UInt8 := 0x02

/-- The size of the output buffer and of the base-read buffer. -/
def staging : Nat := 256

def u32Max : Nat := 2 ^ 32 - 1

/-! ## State -/

/-- Reads from a base image and takes output.  A read fills the whole
buffer or fails. -/
structure DeltaIo (Store Error : Type) where
  readBase : Store → (offset length : Nat) → Except Error (Bytes length) × Store
  write : Store → List UInt8 → Except Error Unit × Store

/-- The adapter over a base image in memory that collects the output. -/
def vecIo (base : List UInt8) : DeltaIo (List UInt8) Unit where
  readBase out offset length :=
    match Bytes.ofList length ((base.drop offset).take length) with
    | some bytes => (.ok bytes, out)
    | none => (.error (), out)
  write out bytes := (.ok (), out ++ bytes)

inductive DeltaError (Error : Type) where
  /-- Not a patch this applier reads, or one that does not fit its own
  header. -/
  | malformed
  /-- An operation reached outside the base image. -/
  | baseRange
  | base (error : Error)
  | sink (error : Error)
  deriving DecidableEq, Repr

/-- What the machine would do instead of going on: the source has no value
for these. -/
inductive Fault where
  | index
  | overflow
  | underflow
  | shift
  | unfinished
  deriving DecidableEq, Repr

/-- Why a step stopped. -/
inductive Halt (Error : Type) where
  | error (error : DeltaError Error)
  | fault (fault : Fault)
  deriving DecidableEq, Repr

/-- Offsets after a decoded block was accepted by the output adapter. -/
structure Checkpoint where
  patchOffset : Nat
  output : Nat
  deriving DecidableEq, Repr

inductive Stage where
  | header (held : Nat)
  | blockHeader (held : Nat)
  | body (packedLeft blockEnd : Nat)
  | done
  deriving DecidableEq, Repr

inductive Op where
  | tag
  | len (add : Bool) (value shift : Nat)
  | seek (len value shift : Nat)
  | add (left : Nat)
  | insert (left : Nat)
  deriving DecidableEq, Repr

/-- `out` and `cache` are the filled parts of the two buffers. -/
structure DeltaApplier where
  targetLen : Nat
  baseLen : Nat
  patchOffset : Nat
  output : Nat
  stage : Stage
  header : Vector UInt8 deltaHeaderLen
  window : Vector UInt8 lzssWindow
  windowPos : Nat
  bits : Nat
  bitCount : Nat
  op : Op
  cursor : Nat
  out : List UInt8
  cache : List UInt8
  cacheStart : Nat
  deriving DecidableEq

/-- Start at the patch header. -/
def DeltaApplier.new (targetLen baseLen : Nat) : DeltaApplier where
  targetLen := targetLen
  baseLen := baseLen
  patchOffset := 0
  output := 0
  stage := .header 0
  header := Vector.replicate deltaHeaderLen 0
  window := Vector.replicate lzssWindow 0
  windowPos := 0
  bits := 0
  bitCount := 0
  op := .tag
  cursor := 0
  out := []
  cache := []
  cacheStart := 0

/-- Start after a durable block of the same patch, base and target. -/
def DeltaApplier.resume (targetLen baseLen : Nat) (point : Checkpoint) :
    DeltaApplier :=
  { DeltaApplier.new targetLen baseLen with
    patchOffset := point.patchOffset
    output := point.output
    stage := if targetLen ≤ point.output then .done else .blockHeader 0 }

def DeltaApplier.complete (applier : DeltaApplier) : Bool :=
  applier.stage = .done

/-- What the applier did, in order.  A write is marked with whether the
adapter accepted it, and the end of a block with its checkpoint. -/
inductive Event where
  | read (offset length : Nat)
  | write (bytes : List UInt8) (accepted : Bool)
  | block (checkpoint : Checkpoint)
  deriving DecidableEq, Repr

structure Session (Store : Type) where
  applier : DeltaApplier
  store : Store
  log : List Event

variable {Store Error : Type}

abbrev Step (Store Error : Type) :=
  Program (Session Store) (Halt Error)

def fail {Value : Type} (error : DeltaError Error) :
    Step Store Error Value :=
  throw (.error error)

def stuck {Value : Type} (fault : Fault) : Step Store Error Value :=
  throw (.fault fault)

def change (edit : DeltaApplier → DeltaApplier) : Step Store Error Unit :=
  modify fun session => { session with applier := edit session.applier }

def note (event : Event) : Step Store Error Unit :=
  modify fun session => { session with log := session.log ++ [event] }

/-! ## Machine integers -/

/-- A sum, if it fits 32 bits. -/
def add32 (first second : Nat) : Step Store Error Nat :=
  if first + second < 2 ^ 32 then pure (first + second)
  else stuck .overflow

def subtract (first second : Nat) : Step Store Error Nat :=
  if second ≤ first then pure (first - second) else stuck .underflow

/-- A shift to the right of a 32-bit number, by less than its width. -/
def shiftRight32 (number count : Nat) : Step Store Error Nat :=
  if count < 32 then pure (number >>> count) else stuck .shift

/-- A shift to the left, which drops what leaves the 32 bits. -/
def shiftLeft32 (number count : Nat) : Step Store Error Nat :=
  if count < 32 then pure ((number <<< count) % 2 ^ 32) else stuck .shift

/-- A signed number, if it fits 64 bits. -/
def i64 (number : Int) : Step Store Error Int :=
  if -2 ^ 63 ≤ number ∧ number < 2 ^ 63 then pure number
  else stuck .overflow

def saturatingAdd (first second : Nat) : Nat :=
  min (first + second) u32Max

/-! ## Output and base -/

variable (io : DeltaIo Store Error)

/-- Hand bytes to the adapter. -/
def writeOut (bytes : List UInt8) : Step Store Error Unit := do
  let session ← get
  let (result, store) := io.write session.store bytes
  modify fun session => { session with store }
  match result with
  | .ok () => note (.write bytes true)
  | .error error => do
      note (.write bytes false)
      fail (.sink error)

def flush : Step Store Error Unit := do
  let session ← get
  if session.applier.out ≠ [] then do
    writeOut io session.applier.out
    change fun applier => { applier with out := [] }
  else pure ()

def emit (byte : UInt8) : Step Store Error Unit := do
  let session ← get
  if session.applier.out.length < staging then do
    change fun applier => { applier with out := applier.out ++ [byte] }
    let output ← add32 session.applier.output 1
    change fun applier => { applier with output }
    if session.applier.out.length + 1 = staging then flush io
    else pure ()
  else stuck .index

/-- The base byte at the cursor, through the cache. -/
def baseByte : Step Store Error UInt8 := do
  let session ← get
  let applier := session.applier
  let index := (applier.cursor + 2 ^ 32 - applier.cacheStart) % 2 ^ 32
  if applier.cursor < applier.cacheStart ∨ applier.cache.length ≤ index then do
    let left ← subtract applier.baseLen applier.cursor
    let length := min left staging
    note (.read applier.cursor length)
    let (result, store) := io.readBase session.store applier.cursor length
    modify fun session => { session with store }
    match result with
    | .error error => fail (.base error)
    | .ok bytes => do
        change fun applier =>
          { applier with cacheStart := applier.cursor, cache := bytes.val }
        match bytes.val[0]? with
        | some byte => pure byte
        | none => stuck .index
  else
    match applier.cache[index]? with
    | some byte => pure byte
    | none => stuck .index

/-! ## Operations -/

/-- The number so far with the next seven bits of it. -/
def leb128 (value shift : Nat) (byte : UInt8) : Step Store Error Nat :=
  if 28 < shift ∨ (shift = 28 ∧ byte &&& 0x70 ≠ 0) then fail .malformed
  else do
    let group ← shiftLeft32 (byte &&& 0x7f).toNat shift
    pure (value ||| group)

/-- The move that a zigzag number stands for. -/
def unzigzag (value : Nat) : Int :=
  Int.xor (value >>> 1 : Nat) (-(value &&& 1 : Nat))

/-- The operation after one more byte of it. -/
def nextOp (byte : UInt8) (blockEnd : Nat) : Step Store Error Op := do
  let session ← get
  let applier := session.applier
  match applier.op with
  | .tag =>
      if byte = opAdd then pure (.len true 0 0)
      else if byte = opInsert then pure (.len false 0 0)
      else fail .malformed
  | .len add value shift => do
      let value ← leb128 value shift byte
      if byte &&& 0x80 ≠ 0 then do
        let shift ← add32 shift 7
        pure (.len add value shift)
      else if value = 0 ∨
          blockEnd < saturatingAdd applier.output value then
        fail .malformed
      else if add then pure (.seek value 0 0)
      else pure (.insert value)
  | .seek len value shift => do
      let value ← leb128 value shift byte
      if byte &&& 0x80 ≠ 0 then do
        let shift ← add32 shift 7
        pure (.seek len value shift)
      else do
        let cursor ← i64 (applier.cursor + unzigzag value)
        let reached ← i64 (cursor + len)
        if cursor < 0 ∨ (applier.baseLen : Int) < reached then
          fail .baseRange
        else do
          change fun applier =>
            { applier with cursor := (cursor % 2 ^ 32).toNat }
          pure (.add len)
  | .add left => do
      let base ← baseByte io
      let cursor ← add32 applier.cursor 1
      change fun applier => { applier with cursor }
      emit io (base + byte)
      if left = 1 then pure .tag
      else do
        let left ← subtract left 1
        pure (.add left)
  | .insert left => do
      emit io byte
      if left = 1 then pure .tag
      else do
        let left ← subtract left 1
        pure (.insert left)

/-- One unpacked byte of the block's operations. -/
def decoded (byte : UInt8) (blockEnd : Nat) : Step Store Error Unit := do
  let session ← get
  let position := session.applier.windowPos
  if within : position < lzssWindow then do
    change fun applier =>
      { applier with
        window := applier.window.set position byte within
        windowPos := (position + 1) % lzssWindow }
    let op ← nextOp io byte blockEnd
    change fun applier => { applier with op }
  else stuck .index

/-! ## Blocks -/

def takeBits (count : Nat) : Step Store Error Nat := do
  let session ← get
  let bitCount ← subtract session.applier.bitCount count
  change fun applier => { applier with bitCount }
  let bits ← shiftRight32 session.applier.bits bitCount
  pure (bits &&& ((1 <<< count) - 1))

/-- The byte of the window that lies a distance back. -/
def windowByte (distance : Nat) : Step Store Error UInt8 := do
  let session ← get
  let index ← subtract (session.applier.windowPos + lzssWindow) distance
  match session.applier.window[index % lzssWindow]? with
  | some byte => pure byte
  | none => stuck .index

/-- Unpack the items whose bits are all there.  An item takes at least nine
bits, so a count of the bits bounds the turns of the loop. -/
def decodeItems (blockEnd : Nat) : Nat → Step Store Error Unit
  | 0 => stuck .unfinished
  | turns + 1 => do
      let session ← get
      let bitCount := session.applier.bitCount
      if bitCount = 0 then pure ()
      else do
        let top ← shiftRight32 session.applier.bits (bitCount - 1)
        let literal : Bool := top &&& 1 == 1
        let need := 1 + if literal then 8
          else lzssIndexBits + lzssLengthBits
        if bitCount < need then pure ()
        else do
          change fun applier => { applier with bitCount := bitCount - 1 }
          if literal then do
            let byte ← takeBits 8
            decoded io (UInt8.ofNat byte) blockEnd
          else do
            let index ← takeBits lzssIndexBits
            let length ← takeBits lzssLengthBits
            Program.iterate
              (do
                let byte ← windowByte (index + 1)
                decoded io byte blockEnd)
              (length + lzssMinMatch)
          decodeItems blockEnd turns

/-! ## The patch -/

def storeHeader (index : Nat) (byte : UInt8) : Step Store Error Unit :=
  if within : index < deltaHeaderLen then
    change fun applier =>
      { applier with header := applier.header.set index byte within }
  else stuck .index

def toStage (stage : Stage) : Step Store Error Unit :=
  change fun applier => { applier with stage }

/-- The applier at the start of a block's packed bytes. -/
def DeltaApplier.openBlock (applier : DeltaApplier)
    (packedLeft baseOffset : Nat) : DeltaApplier :=
  { applier with
    cursor := baseOffset
    window := Vector.replicate lzssWindow 0
    windowPos := 0
    bits := 0
    bitCount := 0
    op := .tag
    stage := .body packedLeft
      (min (saturatingAdd applier.output deltaBlockOut) applier.targetLen) }

/-- One byte of the patch's header. -/
def pushHeader (held : Nat) (byte : UInt8) :
    Step Store Error (Option Checkpoint) := do
  storeHeader held byte
  if held + 1 < deltaHeaderLen then do
    toStage (.header (held + 1))
    pure none
  else do
    let session ← get
    let header := session.applier.header.toList
    let target := ofLittleEndian (header.drop 8)
    if header.take 4 ≠ deltaMagic ∨ header[4]? ≠ some deltaVersion ∨
        (header.drop 5).take 3 ≠ [0, 0, 0] ∨
          target ≠ session.applier.targetLen ∨ target = 0 then
      fail .malformed
    else do
      toStage (.blockHeader 0)
      pure none

/-- One byte of a block's header. -/
def pushBlockHeader (held : Nat) (byte : UInt8) :
    Step Store Error (Option Checkpoint) := do
  storeHeader held byte
  if held + 1 < deltaBlockHeaderLen then do
    toStage (.blockHeader (held + 1))
    pure none
  else do
    let session ← get
    let header := session.applier.header.toList
    let packedLeft := ofLittleEndian (header.take 4)
    let baseOffset := ofLittleEndian ((header.drop 4).take 4)
    if packedLeft = 0 ∨ session.applier.baseLen < baseOffset then
      fail .malformed
    else do
      change fun applier => applier.openBlock packedLeft baseOffset
      pure none

/-- After the last packed byte of a block. -/
def endBlock (blockEnd : Nat) : Step Store Error (Option Checkpoint) := do
  -- The block's bytes end on its last item; what is left is padding.
  let session ← get
  let applier := session.applier
  if applier.output ≠ blockEnd ∨ applier.op ≠ .tag ∨
      8 ≤ applier.bitCount then
    fail .malformed
  else do
    flush io
    let checkpoint : Checkpoint := ⟨applier.patchOffset, applier.output⟩
    note (.block checkpoint)
    toStage (if applier.output = applier.targetLen then .done
      else .blockHeader 0)
    pure (some checkpoint)

/-- One byte of a block's packed bytes. -/
def pushBody (packedLeft blockEnd : Nat) (byte : UInt8) :
    Step Store Error (Option Checkpoint) := do
  let session ← get
  let shifted ← shiftLeft32 session.applier.bits 8
  let bitCount ← add32 session.applier.bitCount 8
  change fun applier =>
    { applier with bits := shifted ||| byte.toNat, bitCount }
  decodeItems io blockEnd (bitCount + 1)
  let packedLeft ← subtract packedLeft 1
  if packedLeft ≠ 0 then do
    toStage (.body packedLeft blockEnd)
    pure none
  else endBlock io blockEnd

/-- One byte of the patch; the checkpoint of the block it ends, if it ends
one. -/
def pushByte (byte : UInt8) : Step Store Error (Option Checkpoint) := do
  change fun applier =>
    { applier with patchOffset := (applier.patchOffset + 1) % 2 ^ 32 }
  let session ← get
  match session.applier.stage with
  | .header held => pushHeader held byte
  | .blockHeader held => pushBlockHeader held byte
  | .body packedLeft blockEnd => pushBody io packedLeft blockEnd byte
  | .done => fail .malformed

/-- Consume patch bytes and return the last block boundary that they
complete. -/
def push (patch : List UInt8) : Step Store Error (Option Checkpoint) :=
  Program.through (pushByte io) none patch

/-! ## Pieces -/

/-- What a caller has after pushing pieces until the first error. -/
structure Feeding (Store Error : Type) where
  checkpoint : Option Checkpoint
  stopped : Option (Halt Error)
  session : Session Store

/-- Push the pieces of a patch one after the other until one fails. -/
def feed : List (List UInt8) → Option Checkpoint → Session Store →
    Feeding Store Error
  | [], checkpoint, session => ⟨checkpoint, none, session⟩
  | piece :: rest, checkpoint, session =>
      match (push io piece).exec session with
      | (.ok reported, reached) => feed rest (reported.or checkpoint) reached
      | (.error halt, reached) => ⟨checkpoint, some halt, reached⟩

/-- A session with an applier that has not seen anything yet. -/
def Session.start (applier : DeltaApplier) (store : Store) :
    Session Store :=
  ⟨applier, store, []⟩

/-- A patch that inserts the bytes 1, 2 and 3. -/
def insertPatch : List UInt8 :=
  [82, 83, 68, 80, 1, 0, 0, 0, 3, 0, 0, 0, 6, 0, 0, 0, 0, 0, 0, 0, 129, 64, 224, 48, 40, 24]

end Ratspeak.Delta
