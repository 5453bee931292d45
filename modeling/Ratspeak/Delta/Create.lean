import Ratspeak.Delta.Applier

/-!
# Patch creation

Matches are found through hash chains over the base and stretched while equal
bytes outweigh different ones; operations are cut at block boundaries, written
as bytes, and packed block by block.  A slice of the source is what is left
after `drop`, and a table a function with a default.
-/

namespace Ratspeak.Delta.Create

open Library

/-! ## Constants -/

def seed : Nat := 8
def hashBits : Nat := 22
def chainDepth : Nat := 48

/-- An exact seed shorter than this is not worth an operation. -/
def seedMin : Nat := 12

/-- Stop stretching once differences lead equal bytes by this much. -/
def stretchSlack : Int := 48
def lzssChainDepth : Nat := 64

/-- The low 32 bits, as a cast takes them. -/
def asU32 (number : Nat) : Nat :=
  number % 2 ^ 32

def usizeMax : Nat := 2 ^ 64 - 1

/-! ## Matching -/

inductive Op where
  /-- Target bytes as base bytes plus differences. -/
  | add (baseAt targetAt len : Nat)
  /-- Target bytes as they are. -/
  | insert (targetAt len : Nat)
  deriving DecidableEq, Repr

def Op.targetAt : Op → Nat
  | .add _ targetAt _ => targetAt
  | .insert targetAt _ => targetAt

def Op.len : Op → Nat
  | .add _ _ len => len
  | .insert _ len => len

def seedHash (bytes : List UInt8) : Nat :=
  (ofLittleEndian (bytes.take seed) * 0x9E3779B97F4A7C15 % 2 ^ 64) >>> (64 - hashBits)

/-- The last position with a hash, and before each position the one with the
same hash; a default stands for none. -/
structure Chains where
  head : Nat → Nat
  prev : Nat → Nat

def Chains.insert (chains : Chains) (key position entry : Nat) : Chains where
  prev := fun place =>
    if place = position then chains.head key else chains.prev place
  head := fun place => if place = key then entry else chains.head place

/-- The chains over the seeds of the base. -/
def seedChains (base : List UInt8) : Chains :=
  (List.range (base.length - (seed - 1))).foldl
    (fun chains position =>
      chains.insert (seedHash (base.drop position)) position (asU32 position))
    ⟨fun _ => u32Max, fun _ => u32Max⟩

def exactLen (base target : List UInt8) (baseAt targetAt : Nat) : Nat :=
  (((base.drop baseAt).zip (target.drop targetAt)).takeWhile
    fun pair => pair.1 == pair.2).length

/-- The best length of a stretch whose steps agree or not, counted from one,
with the steps that are left. -/
def stretch (agrees : Nat → Bool) :
    (left step : Nat) → (score best : Int) → (bestLen : Nat) → Nat
  | 0, _, _, _, bestLen => bestLen
  | left + 1, step, score, best, bestLen =>
      let score := score + if agrees step then 1 else -1
      if best < score then stretch agrees left (step + 1) score score step
      else if stretchSlack < best - score then bestLen
      else stretch agrees left (step + 1) score best bestLen

/-- How far a match stretches forward with differences in it. -/
def stretchForward (base target : List UInt8) (baseAt targetAt : Nat) :
    Nat :=
  stretch
    (fun step => base[baseAt + (step - 1)]? == target[targetAt + (step - 1)]?)
    (min (base.length - baseAt) (target.length - targetAt)) 1 0 0 0

/-- How far back a match takes over up to `room` literal bytes. -/
def stretchBackward (base target : List UInt8) (baseAt targetAt room : Nat) : Nat :=
  stretch (fun step => base[baseAt - step]? == target[targetAt - step]?)
    (min room baseAt) 1 0 0 0

/-- The best match along a chain of candidates. -/
def bestAlong (base target : List UInt8) (chains : Chains) (targetAt : Nat) :
    (depth candidate : Nat) → Option (Nat × Nat) → Option (Nat × Nat)
  | 0, _, best => best
  | depth + 1, candidate, best =>
      if candidate = u32Max then best
      else
        let len := exactLen base target candidate targetAt
        let better := seedMin ≤ len ∧ best.all fun held => held.2 < len
        bestAlong base target chains targetAt depth (chains.prev candidate)
          (if better then some (candidate, len) else best)

/-- The best match at a position: the continuation of the last one first,
then those along the chain. -/
def bestMatch (base target : List UInt8) (chains : Chains)
    (targetAt : Nat) (continuation : Option Nat) : Option (Nat × Nat) :=
  let continued :=
    match continuation.filter fun baseAt => baseAt < base.length with
    | none => none
    | some baseAt =>
        let len := exactLen base target baseAt targetAt
        if seed ≤ len then some (baseAt, len) else none
  bestAlong base target chains targetAt chainDepth
    (chains.head (seedHash (target.drop targetAt))) continued

/-- The operations from a position on, and where the last literal bytes
start. -/
def findLoop (base target : List UInt8) (chains : Chains)
    (targetAt literalFrom : Nat) (continuation : Option Nat) (ops : List Op) : List Op × Nat :=
  if targetAt + seed ≤ target.length then
    match bestMatch base target chains targetAt continuation with
    | none => findLoop base target chains (targetAt + 1) literalFrom continuation ops
    | some (baseAt, _) =>
        let back := stretchBackward base target baseAt targetAt (targetAt - literalFrom)
        let forward := max (stretchForward base target baseAt targetAt) 1
        let startBase := baseAt - back
        let startTarget := targetAt - back
        let literal :=
          if literalFrom < startTarget then
            [.insert (asU32 literalFrom) (asU32 (startTarget - literalFrom))]
          else []
        findLoop base target chains (targetAt + forward) (targetAt + forward)
          (some (baseAt + forward))
          (ops ++ literal ++
            [.add (asU32 startBase) (asU32 startTarget) (asU32 (back + forward))])
  else (ops, literalFrom)
  termination_by target.length - targetAt
  decreasing_by
    · simp only [seed] at *
      omega
    · simp only [seed] at *
      omega

def findOps (base target : List UInt8) : List Op :=
  let found := findLoop base target (seedChains base) 0 0 none []
  if found.2 < target.length then
    found.1 ++ [.insert (asU32 found.2) (asU32 (target.length - found.2))]
  else found.1

/-! ## Blocks -/

/-- Where the block of a target offset ends. -/
def boundary (start : Nat) : Nat :=
  (start / deltaBlockOut + 1) * deltaBlockOut

theorem lt_boundary (start : Nat) : start < boundary start := by
  have positive : 0 < deltaBlockOut := by decide
  rw [boundary]
  exact Nat.lt_mul_of_div_lt (Nat.lt_succ_self _) positive

/-- The part of an operation inside a block, and the rest of it. -/
def Op.cut (head : Nat) : Op → Op × Op
  | .add baseAt targetAt len =>
      (.add baseAt targetAt head, .add (baseAt + head) (targetAt + head) (len - head))
  | .insert targetAt len =>
      (.insert targetAt head, .insert (targetAt + head) (len - head))

theorem Op.len_cut (head : Nat) (op : Op) :
    (op.cut head).2.len = op.len - head := by
  cases op with
  | add baseAt targetAt len => rfl
  | insert targetAt len => rfl

/-- The parts of an operation, cut at block boundaries. -/
def splitOp (op : Op) : List Op :=
  if op.targetAt + op.len ≤ boundary op.targetAt then [op]
  else
    let pieces := op.cut (boundary op.targetAt - op.targetAt)
    pieces.1 :: splitOp pieces.2
  termination_by op.len
  decreasing_by
    have later := lt_boundary op.targetAt
    rw [Op.len_cut]
    omega

/-- Cut operations so that every block rebuilds exactly its own output. -/
def splitAtBlocks (ops : List Op) : List Op :=
  ops.flatMap splitOp

/-! ## Bytes -/

def leb128 (value : Nat) : List UInt8 :=
  if 0x80 ≤ value then
    (UInt8.ofNat value ||| 0x80) :: leb128 (value >>> 7)
  else [UInt8.ofNat value]
  termination_by value
  decreasing_by
    rw [Nat.shiftRight_eq_div_pow]
    omega

def zigzag (seek : Int) : Nat :=
  (Int.xor (2 * seek) (seek >>> 63) % 2 ^ 64).toNat

/-- The base offset that the operations start from. -/
def baseOffset (ops : List Op) : Nat :=
  (ops.findSome? fun op =>
    match op with
    | .add baseAt _ _ => some baseAt
    | .insert _ _ => none).getD 0

/-- The operations as bytes, from a cursor on. -/
def encodeFrom (base target : List UInt8) :
    (cursor : Int) → List Op → List UInt8
  | _, [] => []
  | cursor, .add baseAt targetAt len :: rest =>
      opAdd ::
        (leb128 len ++ leb128 (zigzag (baseAt - cursor)) ++
          (List.range len).map (fun index =>
            target.getD (targetAt + index) 0 - base.getD (baseAt + index) 0) ++
          encodeFrom base target (baseAt + len : Nat) rest)
  | cursor, .insert targetAt len :: rest =>
      opInsert ::
        (leb128 len ++ (target.drop targetAt).take len ++ encodeFrom base target cursor rest)

/-- One block's operations, uncompressed, and the base cursor they start
from. -/
def encodeOps (base target : List UInt8) (ops : List Op) :
    Nat × List UInt8 :=
  (baseOffset ops, encodeFrom base target (baseOffset ops) ops)

/-! ## Packing -/

structure BitWriter where
  bytes : List UInt8
  acc : Nat
  count : Nat

/-- Take whole bytes from the accumulator. -/
def BitWriter.drain (writer : BitWriter) : BitWriter :=
  if 8 ≤ writer.count then
    BitWriter.drain
      { writer with
        bytes := writer.bytes ++ [UInt8.ofNat (writer.acc >>> (writer.count - 8))]
        count := writer.count - 8 }
  else writer
  termination_by writer.count

def BitWriter.put (writer : BitWriter) (value count : Nat) : BitWriter :=
  BitWriter.drain
    { writer with
      acc := (writer.acc <<< count) % 2 ^ 64 ||| value
      count := writer.count + count }

def BitWriter.finish (writer : BitWriter) : List UInt8 :=
  if 0 < writer.count then (writer.put 0 (8 - writer.count)).bytes
  else writer.bytes

def lzssHash (input : List UInt8) (position : Nat) : Nat :=
  let value := (input.getD position 0).toNat |||
    ((input.getD (position + 1) 0).toNat <<< 8) ||| ((input.getD (position + 2) 0).toNat <<< 16)
  ((value * 0x9E3779B1 % 2 ^ 32) >>> 18) % (1 <<< 14)

def lzssInsert (input : List UInt8) (position : Nat) (chains : Chains) :
    Chains :=
  if position + lzssMinMatch ≤ input.length then
    chains.insert (lzssHash input position) position position
  else chains

/-- The longest match along a chain of candidates, with its distance. -/
def longestAlong (input : List UInt8) (chains : Chains) (position : Nat) :
    (depth candidate : Nat) → Nat × Nat → Nat × Nat
  | 0, _, best => best
  | depth + 1, candidate, best =>
      if candidate = usizeMax ∨ lzssWindow < position - candidate then best
      else
        let len :=
          ((((input.drop candidate).zip (input.drop position)).take
            lzssMaxMatch).takeWhile fun pair => pair.1 == pair.2).length
        if best.1 < len then
          if len = lzssMaxMatch then (len, position - candidate)
          else
            longestAlong input chains position depth (chains.prev candidate)
              (len, position - candidate)
        else
          longestAlong input chains position depth (chains.prev candidate) best

def longest (input : List UInt8) (chains : Chains) (position : Nat) :
    Nat × Nat :=
  if input.length < position + lzssMinMatch then (0, 0)
  else
    longestAlong input chains position lzssChainDepth
      (chains.head (lzssHash input position)) (0, 0)

/-- Whether a length is worth a look at the next position. -/
def lookahead (len : Nat) : Bool :=
  lzssMinMatch ≤ len ∧ len < lzssMaxMatch

/-- The packing of the input from a position on. -/
def lzssLoop (input : List UInt8) (position : Nat) (chains : Chains)
    (bits : BitWriter) : BitWriter :=
  if position < input.length then
    match longest input chains position with
    | (len, distance) =>
      let looked :=
        if lookahead len then lzssInsert input position chains else chains
      let lazier := lookahead len && len + 1 < (longest input looked (position + 1)).1
      if lzssMinMatch ≤ len ∧ lazier = false then
        -- The first position may already be in the chain from the lookahead.
        let first :=
          if lookahead len then looked else lzssInsert input position looked
        let skipped := (List.range (len - 1)).foldl
          (fun chains offset =>
            lzssInsert input (position + 1 + offset) chains)
          first
        lzssLoop input (position + len) skipped
          (((bits.put 0 1).put (distance - 1) lzssIndexBits).put
            (len - lzssMinMatch) lzssLengthBits)
      else
        let after :=
          if len < lzssMinMatch then lzssInsert input position looked
          else looked
        lzssLoop input (position + 1) after ((bits.put 1 1).put (input.getD position 0).toNat 8)
  else bits
  termination_by input.length - position
  decreasing_by
    · simp only [lzssMinMatch] at *
      omega
    · omega

/-- One block, packed greedily with one step of lookahead. -/
def lzss (input : List UInt8) : List UInt8 :=
  (lzssLoop input 0 ⟨fun _ => usizeMax, fun _ => usizeMax⟩
    ⟨[], 0, 0⟩).finish

/-! ## The patch -/

/-- The blocks of operations that are cut at block boundaries. -/
def createBlocks (base target : List UInt8) : List Op → List UInt8
  | [] => []
  | op :: ops =>
      let same := fun other : Op =>
        decide (other.targetAt / deltaBlockOut = op.targetAt / deltaBlockOut)
      let encoded := encodeOps base target (op :: ops.takeWhile same)
      let packed := lzss encoded.2
      littleEndian 4 packed.length ++ littleEndian 4 encoded.1 ++ packed ++
        createBlocks base target (ops.dropWhile same)
  termination_by ops => ops.length
  decreasing_by
    simp only [List.length_cons]
    exact Nat.lt_succ_of_le ((List.dropWhile_sublist _).length_le)

/-- A patch that rebuilds the target from the base. -/
def create (base target : List UInt8) : List UInt8 :=
  deltaMagic ++ [deltaVersion, 0, 0, 0] ++ littleEndian 4 target.length ++
    createBlocks base target (splitAtBlocks (findOps base target))

end Ratspeak.Delta.Create
