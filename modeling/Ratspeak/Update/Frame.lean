import Ratspeak.Library.Attempts
import Ratspeak.Library.Words
import Ratspeak.Update.Uploader

/-!
# Management frames

Requests carried from a manager's client to a node: a version byte, the
request's number, a command code and the command's body.  Every command has
bodies of one shape only.  A request that is decoded is therefore encoded to
the bytes it was decoded from, and these are the only bytes that decode to it.

The encoder writes into a buffer of its caller.  It checks the length before
it writes, so that a failure leaves the buffer as it was.
-/

namespace Ratspeak

open Library

namespace Frame

def linkCommandVersion : UInt8 := 1
def commandHeaderLen : Nat := 6
def commandMaxLen : Nat := 431
def otaManifestLen : Nat := 128
def deltaBaseLen : Nat := 40
def otaBeginDeltaLen : Nat := otaManifestLen + deltaBaseLen

/-- `ota.chunk` flag: answer with the next expected offset. -/
def chunkFlagAck : UInt8 := 0x01

def cmdStatus : UInt8 := 0x01
def cmdOtaBegin : UInt8 := 0x08
def cmdOtaChunk : UInt8 := 0x09
def cmdOtaFinish : UInt8 := 0x0A
def cmdOtaAbort : UInt8 := 0x0B

/-- Expected base image and patch length. -/
structure DeltaBase where
  baseLen : UInt32
  baseSha256 : Bytes 32
  patchLen : UInt32
deriving DecidableEq

inductive Command where
  | status
  | otaBegin (manifest : Bytes otaManifestLen) (delta : Option DeltaBase)
  | otaChunk (ack : Bool) (offset : UInt32) (data : List UInt8)
  | otaFinish
  | otaAbort
deriving DecidableEq

structure Request where
  id : UInt32
  command : Command
deriving DecidableEq

inductive RequestError where
  | malformed
  | unsupported (id : UInt32)
deriving DecidableEq, Repr

inductive EncodeError where
  | bufferTooSmall
deriving DecidableEq, Repr

/-! ## Decoding -/

namespace Command

def decodeDelta (delta : List UInt8) : Option DeltaBase :=
  if delta = [] then none
  else some
    { baseLen := be32 (delta.take 4)
      baseSha256 :=
        (Bytes.ofList 32 ((delta.take 36).drop 4)).getD (Bytes.replicate 32 0)
      patchLen := be32 (delta.drop 36) }

/-- Nothing for a code outside the transfer set; a transfer code with a body
of the wrong shape is malformed. -/
def decode (code : UInt8) (body : List UInt8) :
    Option (Except RequestError Command) :=
  if code = cmdStatus ∧ body.length = 0 then some (.ok .status)
  else if code = cmdOtaBegin ∧
      (body.length = otaManifestLen ∨ body.length = otaBeginDeltaLen) then
    some (do
      let manifest ← okOr (Bytes.ofList otaManifestLen (body.take otaManifestLen)) .malformed
      .ok (.otaBegin manifest (decodeDelta (body.drop otaManifestLen))))
  else if code = cmdOtaChunk ∧ 6 ≤ body.length ∧
      body.headD 0 &&& ~~~chunkFlagAck = 0 then
    some (.ok (.otaChunk
      (body.headD 0 &&& chunkFlagAck != 0)
      (be32 ((body.take 5).drop 1))
      (body.drop 5)))
  else if code = cmdOtaFinish ∧ body.length = 0 then some (.ok .otaFinish)
  else if code = cmdOtaAbort ∧ body.length = 0 then some (.ok .otaAbort)
  else if code = cmdStatus ∨ code = cmdOtaBegin ∨ code = cmdOtaChunk ∨
      code = cmdOtaFinish ∨ code = cmdOtaAbort then
    some (.error .malformed)
  else none

def code : Command → UInt8
  | .status => cmdStatus
  | .otaBegin _ _ => cmdOtaBegin
  | .otaChunk _ _ _ => cmdOtaChunk
  | .otaFinish => cmdOtaFinish
  | .otaAbort => cmdOtaAbort

end Command

/-- Check the version, a nonzero number and the total length; what remains
is the number, the code and the body. -/
def decodeHeader (bytes : List UInt8) :
    Except RequestError (UInt32 × UInt8 × List UInt8) := do
  refuseIf
    (¬(commandHeaderLen ≤ bytes.length ∧ bytes.length ≤ commandMaxLen) ∨
      bytes.headD 0 ≠ linkCommandVersion) .malformed
  let id := be32 ((bytes.take 5).drop 1)
  refuseIf (id = 0) .malformed
  .ok (id, (bytes.drop 5).headD 0, bytes.drop commandHeaderLen)

def decodeRequest (bytes : List UInt8) : Except RequestError Request := do
  let (id, code, body) ← decodeHeader bytes
  let command ← okOr (Command.decode code body) (.unsupported id)
  let command ← command
  .ok { id, command }

/-! ## Encoding -/

/-- Write the bytes into the buffer from the given place on. -/
def copyFrom (start : Nat) (bytes buffer : List UInt8) : List UInt8 :=
  buffer.take start ++ bytes ++ buffer.drop (start + bytes.length)

namespace Command

/-- Body length; an empty or oversized chunk does not fit any buffer. -/
def bodyLen : Command → Except EncodeError Nat
  | .status | .otaFinish | .otaAbort => .ok 0
  | .otaBegin _ delta => .ok (if delta.isSome then otaBeginDeltaLen else otaManifestLen)
  | .otaChunk _ _ data => do
      refuseIf (data = [] ∨ data.length > otaChunkDataMax) .bufferTooSmall
      .ok (5 + data.length)

def encodeDelta (delta : DeltaBase) (tail : List UInt8) : List UInt8 :=
  copyFrom 36 (toBeBytes32 delta.patchLen)
    (copyFrom 4 delta.baseSha256.val (copyFrom 0 (toBeBytes32 delta.baseLen) tail))

/-- Write the body into `body`, which must have exactly the body's length. -/
def encodeBody (command : Command) (body : List UInt8) : List UInt8 :=
  match command with
  | .otaBegin manifest delta =>
      let body := copyFrom 0 manifest.val body
      match delta with
      | none => body
      | some delta =>
          body.take otaManifestLen ++ encodeDelta delta (body.drop otaManifestLen)
  | .otaChunk ack offset data =>
      copyFrom 5 data
        (copyFrom 1 (toBeBytes32 offset) (copyFrom 0 [if ack then chunkFlagAck else 0] body))
  | .status | .otaFinish | .otaAbort => body

end Command

/-- The result, and the buffer afterwards. -/
def encodeHeader (id : UInt32) (code : UInt8) (out : List UInt8) :
    Except EncodeError Nat × List UInt8 :=
  if out.length < commandHeaderLen then (.error .bufferTooSmall, out)
  else
    (.ok commandHeaderLen,
      copyFrom 5 [code] (copyFrom 1 (toBeBytes32 id) (copyFrom 0 [linkCommandVersion] out)))

/-- The result, and the buffer afterwards. -/
def encodeRequest (request : Request) (out : List UInt8) :
    Except EncodeError Nat × List UInt8 :=
  match request.command.bodyLen with
  | .error error => (.error error, out)
  | .ok bodyLen =>
      let len := commandHeaderLen + bodyLen
      if out.length < len then (.error .bufferTooSmall, out)
      else
        let rest := out.drop len
        match encodeHeader request.id request.command.code (out.take len) with
        | (.error error, out) => (.error error, out ++ rest)
        | (.ok _, out) =>
            (.ok len,
              out.take commandHeaderLen ++
                request.command.encodeBody (out.drop commandHeaderLen) ++
                rest)

/-! ## The bytes of a request -/

/-- Every byte of a buffer after the part already written is still to come. -/
theorem copyFrom_append {start : Nat} {front : List UInt8}
    (reached : front.length = start) (bytes back : List UInt8) :
    copyFrom start bytes (front ++ back) =
      front ++ bytes ++ back.drop bytes.length := by
  subst reached
  rw [copyFrom, List.take_left, ← List.drop_drop, List.drop_left]

theorem copyFrom_zero (bytes buffer : List UInt8) :
    copyFrom 0 bytes buffer = bytes ++ buffer.drop bytes.length := by
  rw [copyFrom, List.take_zero, List.nil_append, Nat.zero_add]

def DeltaBase.bytes (delta : DeltaBase) : List UInt8 :=
  toBeBytes32 delta.baseLen ++ delta.baseSha256.val ++ toBeBytes32 delta.patchLen

@[simp]
theorem DeltaBase.length_bytes (delta : DeltaBase) :
    delta.bytes.length = deltaBaseLen := by
  simp [DeltaBase.bytes, delta.baseSha256.property, deltaBaseLen]

namespace Command

/-- A chunk carries some data, and no more than a frame holds. -/
def Fits : Command → Prop
  | .otaChunk _ _ data => data ≠ [] ∧ data.length ≤ otaChunkDataMax
  | _ => True

def bytes : Command → List UInt8
  | .otaBegin manifest none => manifest.val
  | .otaBegin manifest (some delta) => manifest.val ++ delta.bytes
  | .otaChunk ack offset data =>
      (if ack then chunkFlagAck else 0) :: (toBeBytes32 offset ++ data)
  | .status | .otaFinish | .otaAbort => []

theorem bodyLen_of_fits {command : Command} (fits : command.Fits) :
    command.bodyLen = .ok command.bytes.length := by
  cases command with
  | status => rfl
  | otaBegin manifest delta =>
      cases delta with
      | none => simp [bodyLen, bytes, manifest.property]
      | some delta => simp [bodyLen, bytes, manifest.property, otaBeginDeltaLen]
  | otaChunk ack offset data =>
      have allowed : ¬(data = [] ∨ data.length > otaChunkDataMax) := by
        intro refused
        rcases refused with empty | long
        · exact fits.1 empty
        · exact Nat.not_lt.mpr fits.2 long
      rw [bodyLen, refuseIf_of_not _ allowed, ok_bind]
      simp [bytes]
      omega
  | otaFinish => rfl
  | otaAbort => rfl

theorem bodyLen_of_not_fits {command : Command} (large : ¬command.Fits) :
    command.bodyLen = .error .bufferTooSmall := by
  cases command with
  | otaChunk ack offset data =>
      have refused : data = [] ∨ data.length > otaChunkDataMax := by
        by_cases empty : data = []
        · exact .inl empty
        · right
          by_contra short
          exact large ⟨empty, Nat.le_of_not_lt short⟩
      rw [bodyLen, refuseIf, if_pos refused, error_bind]
  | status => exact absurd trivial large
  | otaBegin manifest delta => exact absurd trivial large
  | otaFinish => exact absurd trivial large
  | otaAbort => exact absurd trivial large

theorem encodeDelta_eq (delta : DeltaBase) {tail : List UInt8}
    (sized : tail.length = deltaBaseLen) :
    encodeDelta delta tail = delta.bytes := by
  have spent : (((tail.drop 4).drop 32).drop 4) = [] := by
    rw [List.drop_drop, List.drop_drop]
    exact List.drop_eq_nil_of_le (Nat.le_of_eq sized)
  have sha : delta.baseSha256.val.length = 32 :=
    delta.baseSha256.property
  have first : (toBeBytes32 delta.baseLen).length = 4 :=
    length_toBeBytes32 _
  have second : (toBeBytes32 delta.baseLen ++
      delta.baseSha256.val).length = 36 := by
    rw [List.length_append, first, sha]
  rw [encodeDelta, copyFrom_zero, copyFrom_append first,
    copyFrom_append second, first, sha, length_toBeBytes32, spent,
    List.append_nil, DeltaBase.bytes]

theorem encodeBody_eq {command : Command} {body : List UInt8}
    (sized : body.length = command.bytes.length) :
    command.encodeBody body = command.bytes := by
  cases command with
  | status => exact List.eq_nil_of_length_eq_zero sized
  | otaFinish => exact List.eq_nil_of_length_eq_zero sized
  | otaAbort => exact List.eq_nil_of_length_eq_zero sized
  | otaBegin manifest delta =>
      have whole : manifest.val.length = otaManifestLen :=
        manifest.property
      cases delta with
      | none =>
          have spent : body.drop manifest.val.length = [] :=
            List.drop_eq_nil_of_le (Nat.le_of_eq sized)
          simp only [encodeBody, bytes, copyFrom_zero, spent, List.append_nil]
      | some delta =>
          have rest : (body.drop otaManifestLen).length =
              deltaBaseLen := by
            rw [List.length_drop, sized, bytes, List.length_append,
              whole, DeltaBase.length_bytes, Nat.add_sub_cancel_left]
          simp only [encodeBody, bytes, copyFrom_zero, whole]
          rw [List.take_left' whole, List.drop_left' whole, encodeDelta_eq delta rest]
  | otaChunk ack offset data =>
      have second : ([if ack then chunkFlagAck else 0] ++
          toBeBytes32 offset).length = 5 := by
        rw [List.length_append, length_toBeBytes32, List.length_singleton]
      have spent : ((body.drop 1).drop 4).drop data.length = [] := by
        rw [List.drop_drop, List.drop_drop]
        refine List.drop_eq_nil_of_le ?_
        rw [sized, bytes, List.length_cons, List.length_append, length_toBeBytes32]
        omega
      simp only [encodeBody, copyFrom_zero, List.length_singleton]
      rw [copyFrom_append (List.length_singleton),
        copyFrom_append second, length_toBeBytes32, spent,
        List.append_nil, bytes, List.append_assoc,
        List.singleton_append]

/-! ### Bodies that are decoded -/

/-- Apart from the acknowledgement no flag is set. -/
private theorem flag_cases (byte : UInt8) (plain : byte &&& ~~~chunkFlagAck = 0) :
    byte = if byte &&& chunkFlagAck != 0 then chunkFlagAck else 0 := by
  revert plain
  cases byte with
  | ofBitVec bits =>
      cases bits with
      | ofFin small =>
          revert small
          decide +kernel

private theorem flags (ack : Bool) :
    (if ack then chunkFlagAck else 0) &&& ~~~chunkFlagAck = 0 ∧
      ((if ack then chunkFlagAck else 0) &&& chunkFlagAck != 0) = ack := by
  revert ack
  decide

theorem decodeDelta_nil : decodeDelta [] = none := rfl

theorem decodeDelta_bytes (delta : DeltaBase) :
    decodeDelta delta.bytes = some delta := by
  have sha : delta.baseSha256.val.length = 32 :=
    delta.baseSha256.property
  have first : (toBeBytes32 delta.baseLen).length = 4 :=
    length_toBeBytes32 _
  have second : (toBeBytes32 delta.baseLen ++
      delta.baseSha256.val).length = 36 := by
    rw [List.length_append, first, sha]
  have nonempty : delta.bytes ≠ [] := by
    intro empty
    have sized := DeltaBase.length_bytes delta
    rw [empty] at sized
    cases sized
  have base : be32 (delta.bytes.take 4) = delta.baseLen := by
    rw [DeltaBase.bytes, List.append_assoc, List.take_left' first]
    simpa using be32_toBeBytes32 delta.baseLen []
  have digest : (delta.bytes.take 36).drop 4 = delta.baseSha256.val := by
    rw [DeltaBase.bytes, List.take_left' second, List.drop_left' first]
  have patch : be32 (delta.bytes.drop 36) = delta.patchLen := by
    rw [DeltaBase.bytes, List.drop_left' second]
    simpa using be32_toBeBytes32 delta.patchLen []
  rw [decodeDelta, if_neg nonempty, base, digest, patch, Bytes.ofList_val]
  rfl

/-- The bytes of a base of the right length are the ones it was read
from. -/
theorem bytes_of_decodeDelta {tail : List UInt8} (sized : tail.length = deltaBaseLen) :
    ∃ delta, decodeDelta tail = some delta ∧ delta.bytes = tail := by
  have nonempty : tail ≠ [] := by
    intro empty
    rw [empty] at sized
    cases sized
  have long : tail.length = 40 := sized
  have digest : ((tail.take 36).drop 4).length = 32 := by
    simp [long]
  have first : (tail.take 4).length = 4 := by
    simp [long]
  have last : (tail.drop 36).length = 4 := by
    simp [long]
  have split : tail.take 4 ++ (tail.take 36).drop 4 ++ tail.drop 36 =
      tail := by
    have front : tail.take 4 = (tail.take 36).take 4 := by
      rw [List.take_take]
      rfl
    rw [front, List.take_append_drop, List.take_append_drop]
  have read : Bytes.ofList 32 ((tail.take 36).drop 4) =
      some ⟨(tail.take 36).drop 4, digest⟩ := by
    rw [Bytes.ofList, dif_pos digest]
  refine ⟨_, by rw [decodeDelta, if_neg nonempty, read], ?_⟩
  rw [DeltaBase.bytes, toBeBytes32_be32 first, toBeBytes32_be32 last]
  exact split

theorem decode_bytes {command : Command} (fits : command.Fits) :
    decode command.code command.bytes = some (.ok command) := by
  cases command with
  | status => rfl
  | otaFinish => rfl
  | otaAbort => rfl
  | otaBegin manifest delta =>
      have whole : manifest.val.length = otaManifestLen :=
        manifest.property
      cases delta with
      | none =>
          have spent : manifest.val.drop otaManifestLen = [] :=
            List.drop_eq_nil_of_le (Nat.le_of_eq whole)
          have taken : manifest.val.take otaManifestLen = manifest.val :=
            List.take_of_length_le (Nat.le_of_eq whole)
          simp [decode, code, bytes, cmdOtaBegin, cmdStatus, whole, spent,
            taken, decodeDelta_nil]
      | some delta =>
          have long : (manifest.val ++ delta.bytes).length =
              otaBeginDeltaLen := by
            rw [List.length_append, whole, DeltaBase.length_bytes]
            rfl
          have taken : (manifest.val ++ delta.bytes).take otaManifestLen =
              manifest.val :=
            List.take_left' whole
          have dropped :
              (manifest.val ++ delta.bytes).drop otaManifestLen = delta.bytes :=
            List.drop_left' whole
          simp only [decode, code, bytes, long, taken, dropped,
            decodeDelta_bytes, Bytes.ofList_val, okOr_some, ok_bind]
          rfl
  | otaChunk ack offset data =>
      have long : 6 ≤ (bytes (.otaChunk ack offset data)).length := by
        have some_data : data.length ≠ 0 := by
          intro empty
          exact fits.1 (List.eq_nil_of_length_eq_zero empty)
        rw [bytes, List.length_cons, List.length_append, length_toBeBytes32]
        omega
      have plain :
          (bytes (.otaChunk ack offset data)).headD 0 &&& ~~~chunkFlagAck =
            0 := by
        rw [bytes, List.headD_cons]
        exact (flags ack).1
      have acked :
          ((bytes (.otaChunk ack offset data)).headD 0 &&& chunkFlagAck
            != 0) = ack := by
        rw [bytes, List.headD_cons]
        exact (flags ack).2
      have place :
          be32 (((bytes (.otaChunk ack offset data)).take 5).drop 1) =
            offset := by
        rw [bytes, List.take_succ_cons, List.drop_succ_cons,
          List.drop_zero, List.take_left' (length_toBeBytes32 offset)]
        simpa using be32_toBeBytes32 offset []
      have carried : (bytes (.otaChunk ack offset data)).drop 5 = data := by
        rw [bytes, List.drop_succ_cons, List.drop_left' (length_toBeBytes32 offset)]
      have other : cmdOtaChunk ≠ cmdStatus ∧ cmdOtaChunk ≠ cmdOtaBegin :=
        ⟨by decide, by decide⟩
      rw [decode, code, if_neg (fun same => other.1 same.1),
        if_neg (fun same => other.2 same.1), if_pos ⟨rfl, long, plain⟩,
        acked, place, carried]

/-- What a decoded command says of the bytes that it was decoded from. -/
structure Spells (code : UInt8) (body : List UInt8) (command : Command) :
    Prop where
  fits : command.Fits
  code : code = command.code
  body : body = command.bytes

private theorem spells_begin {body : List UInt8} {command : Command}
    (sized : body.length = otaManifestLen ∨ body.length = otaBeginDeltaLen) (decoded : (do
        let manifest ←
          okOr (Bytes.ofList otaManifestLen (body.take otaManifestLen)) RequestError.malformed
        Except.ok (Command.otaBegin manifest
          (decodeDelta (body.drop otaManifestLen)))) = .ok command) :
    Spells cmdOtaBegin body command := by
  have long : otaManifestLen ≤ body.length := by
    rcases sized with short | withDelta
    · exact Nat.le_of_eq short.symm
    · rw [withDelta]
      exact Nat.le_add_right _ _
  have front : (body.take otaManifestLen).length = otaManifestLen :=
    List.length_take_of_le long
  have read : Bytes.ofList otaManifestLen (body.take otaManifestLen) =
      some ⟨body.take otaManifestLen, front⟩ := by
    rw [Bytes.ofList, dif_pos front]
  rw [read, okOr_some, ok_bind] at decoded
  have command_eq := Except.ok.inj decoded
  have split := List.take_append_drop otaManifestLen body
  rcases sized with short | withDelta
  · have spent : body.drop otaManifestLen = [] :=
      List.drop_eq_nil_of_le (Nat.le_of_eq short)
    rw [spent, decodeDelta_nil] at command_eq
    rw [spent, List.append_nil] at split
    subst command_eq
    exact ⟨trivial, rfl, split.symm⟩
  · have tail : (body.drop otaManifestLen).length = deltaBaseLen := by
      rw [List.length_drop, withDelta]
      exact Nat.add_sub_cancel_left _ _
    obtain ⟨delta, decodedDelta, delta_bytes⟩ :=
      bytes_of_decodeDelta tail
    rw [decodedDelta] at command_eq
    subst command_eq
    refine ⟨trivial, rfl, ?_⟩
    rw [bytes, delta_bytes]
    exact split.symm

private theorem spells_chunk {body : List UInt8}
    (long : 6 ≤ body.length) (plain : body.headD 0 &&& ~~~chunkFlagAck = 0)
    (short : commandHeaderLen + body.length ≤ commandMaxLen) :
    Spells cmdOtaChunk body
      (.otaChunk (body.headD 0 &&& chunkFlagAck != 0)
        (be32 ((body.take 5).drop 1)) (body.drop 5)) := by
  cases body with
  | nil => cases long
  | cons flag rest =>
      rw [List.headD_cons] at plain
      rw [List.length_cons] at long short
      have place : ((flag :: rest).take 5).drop 1 = rest.take 4 := rfl
      have carried : (flag :: rest).drop 5 = rest.drop 4 := rfl
      have four : (rest.take 4).length = 4 :=
        List.length_take_of_le (by omega)
      have remaining : (rest.drop 4).length = rest.length - 4 :=
        List.length_drop
      constructor
      · rw [carried]
        constructor
        · intro empty
          rw [empty, List.length_nil] at remaining
          omega
        · rw [remaining]
          unfold commandHeaderLen commandMaxLen at short
          unfold otaChunkDataMax
          omega
      · rfl
      · rw [bytes, List.headD_cons, ← flag_cases flag plain, place,
          carried, toBeBytes32_be32 four, List.take_append_drop]

/-- Only the bytes that a command is encoded to decode to it, as far as they
fit a frame. -/
theorem spells_of_decode {code : UInt8} {body : List UInt8} {command : Command}
    (short : commandHeaderLen + body.length ≤ commandMaxLen)
    (decoded : decode code body = some (.ok command)) :
    Spells code body command := by
  unfold decode at decoded
  split at decoded
  next shape =>
    cases decoded
    exact ⟨trivial, shape.1, List.eq_nil_of_length_eq_zero shape.2⟩
  split at decoded
  next shape =>
    rw [shape.1]
    exact spells_begin shape.2 (Option.some.inj decoded)
  split at decoded
  next shape =>
    cases decoded
    rw [shape.1]
    exact spells_chunk shape.2.1 shape.2.2 short
  split at decoded
  next shape =>
    cases decoded
    exact ⟨trivial, shape.1, List.eq_nil_of_length_eq_zero shape.2⟩
  split at decoded
  next shape =>
    cases decoded
    exact ⟨trivial, shape.1, List.eq_nil_of_length_eq_zero shape.2⟩
  split at decoded
  next =>
    cases decoded
  next =>
    cases decoded

theorem length_bytes_le {command : Command} (fits : command.Fits) :
    commandHeaderLen + command.bytes.length ≤ commandMaxLen := by
  unfold commandHeaderLen commandMaxLen
  cases command with
  | status => decide
  | otaFinish => decide
  | otaAbort => decide
  | otaBegin manifest delta =>
      have whole : manifest.val.length = 128 := manifest.property
      cases delta with
      | none =>
          rw [bytes]
          omega
      | some delta =>
          have base : delta.bytes.length = 40 := delta.length_bytes
          rw [bytes, List.length_append]
          omega
  | otaChunk ack offset data =>
      have small : data.length ≤ 420 := fits.2
      rw [bytes, List.length_cons, List.length_append, length_toBeBytes32]
      omega

end Command

/-! ## Requests -/

def Request.bytes (request : Request) : List UInt8 :=
  linkCommandVersion :: (toBeBytes32 request.id ++
    request.command.code :: request.command.bytes)

theorem Request.length_bytes (request : Request) :
    request.bytes.length =
      commandHeaderLen + request.command.bytes.length := by
  rw [Request.bytes, List.length_cons, List.length_append,
    length_toBeBytes32, List.length_cons, commandHeaderLen]
  omega

theorem encodeHeader_eq (id : UInt32) (code : UInt8) {out : List UInt8}
    (large : commandHeaderLen ≤ out.length) :
    encodeHeader id code out =
      (.ok commandHeaderLen,
        (linkCommandVersion :: (toBeBytes32 id ++ [code])) ++
          out.drop commandHeaderLen) := by
  have second : ([linkCommandVersion] ++ toBeBytes32 id).length = 5 := by
    rw [List.length_append, length_toBeBytes32, List.length_singleton]
  rw [encodeHeader, if_neg (Nat.not_lt.mpr large), copyFrom_zero,
    copyFrom_append (List.length_singleton), copyFrom_append second,
    List.length_singleton, length_toBeBytes32, List.drop_drop,
    List.drop_drop, List.length_singleton]
  simp [commandHeaderLen]

theorem encodeRequest_of_not_fits {request : Request}
    (large : ¬request.command.Fits) (out : List UInt8) :
    encodeRequest request out = (.error .bufferTooSmall, out) := by
  rw [encodeRequest, Command.bodyLen_of_not_fits large]

theorem encodeRequest_of_short {request : Request} {out : List UInt8}
    (fits : request.command.Fits) (short : out.length < request.bytes.length) :
    encodeRequest request out = (.error .bufferTooSmall, out) := by
  rw [Request.length_bytes] at short
  simp only [encodeRequest, Command.bodyLen_of_fits fits, if_pos short]

theorem encodeRequest_of_large {request : Request} {out : List UInt8}
    (fits : request.command.Fits) (large : request.bytes.length ≤ out.length) :
    encodeRequest request out =
      (.ok request.bytes.length,
        request.bytes ++ out.drop request.bytes.length) := by
  rw [Request.length_bytes] at large ⊢
  have slice : (out.take
      (commandHeaderLen + request.command.bytes.length)).length =
      commandHeaderLen + request.command.bytes.length :=
    List.length_take_of_le large
  have header := encodeHeader_eq request.id request.command.code
    (Nat.le_trans (Nat.le_add_right _ _) (Nat.le_of_eq slice.symm))
  have front : (linkCommandVersion :: (toBeBytes32 request.id ++
      [request.command.code])).length = commandHeaderLen := by
    rw [List.length_cons, List.length_append, length_toBeBytes32,
      List.length_singleton, commandHeaderLen]
  have body : ((out.take
      (commandHeaderLen + request.command.bytes.length)).drop
        commandHeaderLen).length = request.command.bytes.length := by
    rw [List.length_drop, slice, Nat.add_sub_cancel_left]
  simp only [encodeRequest, Command.bodyLen_of_fits fits, if_neg (Nat.not_lt.mpr large), header]
  rw [List.take_left' front, List.drop_left' front, Command.encodeBody_eq body, Request.bytes]
  simp

/-- The header's fields and the body are all there is. -/
private theorem header_split {bytes : List UInt8} (long : commandHeaderLen ≤ bytes.length)
    (version : bytes.headD 0 = linkCommandVersion) :
    bytes = linkCommandVersion ::
      (toBeBytes32 (be32 ((bytes.take 5).drop 1)) ++
        (bytes.drop 5).headD 0 :: bytes.drop commandHeaderLen) := by
  cases bytes with
  | nil => cases long
  | cons first rest =>
      rw [List.headD_cons] at version
      have five : 5 ≤ rest.length := Nat.le_of_succ_le_succ long
      have four : (rest.take 4).length = 4 :=
        List.length_take_of_le (by omega)
      have number : ((first :: rest).take 5).drop 1 = rest.take 4 := rfl
      have later : (first :: rest).drop 5 = rest.drop 4 := rfl
      have last : (first :: rest).drop commandHeaderLen =
          (rest.drop 4).drop 1 := by
        rw [List.drop_drop]
        rfl
      have code : (rest.drop 4).headD 0 :: (rest.drop 4).drop 1 =
          rest.drop 4 := by
        cases tail : rest.drop 4 with
        | nil =>
            have none_left := List.drop_eq_nil_iff.mp tail
            omega
        | cons head others => rfl
      rw [number, later, last, code, toBeBytes32_be32 four, List.take_append_drop, version]

/-- Bytes decode to a request exactly when they are the request's bytes, its
number is not zero and its command fits a frame. -/
theorem decodeRequest_eq_ok_iff {bytes : List UInt8} {request : Request} :
    decodeRequest bytes = .ok request ↔
      request.id ≠ 0 ∧ request.command.Fits ∧ bytes = request.bytes := by
  constructor
  · intro decoded
    obtain ⟨⟨id, code, body⟩, header, decoded⟩ := bind_eq_ok decoded
    obtain ⟨result, found, decoded⟩ := bind_eq_ok decoded
    obtain ⟨command, ok, decoded⟩ := bind_eq_ok decoded
    cases decoded
    obtain ⟨_, sized, header⟩ := bind_eq_ok header
    obtain ⟨_, nonzero, header⟩ := bind_eq_ok header
    cases header
    have shape := refuseIf_eq_ok sized
    have counted : commandHeaderLen ≤ bytes.length ∧
        bytes.length ≤ commandMaxLen := by
      by_contra outside
      exact shape (.inl outside)
    have version : bytes.headD 0 = linkCommandVersion := by
      by_contra other
      exact shape (.inr other)
    have decodedCommand : Command.decode ((bytes.drop 5).headD 0)
        (bytes.drop commandHeaderLen) = some (.ok command) := by
      rw [← ok]
      exact okOr_eq_ok found
    have short : commandHeaderLen + (bytes.drop commandHeaderLen).length ≤
        commandMaxLen := by
      rw [List.length_drop]
      omega
    have spelled := Command.spells_of_decode short decodedCommand
    refine ⟨refuseIf_eq_ok nonzero, spelled.fits, ?_⟩
    rw [Request.bytes, ← spelled.code, ← spelled.body]
    exact header_split counted.1 version
  · rintro ⟨nonzero, fits, rfl⟩
    have counted := Command.length_bytes_le fits
    rw [← Request.length_bytes] at counted
    have least : commandHeaderLen ≤ request.bytes.length := by
      rw [Request.length_bytes]
      exact Nat.le_add_right _ _
    have allowed :
        ¬(¬(commandHeaderLen ≤ request.bytes.length ∧
            request.bytes.length ≤ commandMaxLen) ∨
          request.bytes.headD 0 ≠ linkCommandVersion) := by
      rintro (outside | other)
      · exact outside ⟨least, counted⟩
      · exact other rfl
    have number : be32 ((request.bytes.take 5).drop 1) = request.id := by
      rw [Request.bytes, List.take_succ_cons, List.drop_succ_cons,
        List.drop_zero, List.take_left' (length_toBeBytes32 _)]
      simpa using be32_toBeBytes32 request.id []
    have rest : request.bytes.drop 5 =
        request.command.code :: request.command.bytes := by
      rw [Request.bytes, List.drop_succ_cons, List.drop_left' (length_toBeBytes32 _)]
    have body : request.bytes.drop commandHeaderLen =
        request.command.bytes := by
      have next : request.bytes.drop commandHeaderLen =
          (request.bytes.drop 5).drop 1 := by
        rw [List.drop_drop]
        rfl
      rw [next, rest, List.drop_succ_cons, List.drop_zero]
    have header : decodeHeader request.bytes = .ok
        (request.id, request.command.code, request.command.bytes) := by
      rw [decodeHeader, refuseIf_of_not _ allowed, ok_bind, number]
      dsimp only
      rw [refuseIf_of_not _ nonzero, ok_bind, rest, body, List.headD_cons]
    rw [decodeRequest, header, ok_bind]
    dsimp only
    rw [Command.decode_bytes fits, okOr_some, ok_bind, ok_bind]

/-- An encoder that succeeds has written the request's bytes. -/
theorem encodeRequest_eq_ok {request : Request} {out written : List UInt8}
    {len : Nat} (encoded : encodeRequest request out = (.ok len, written)) :
    request.command.Fits ∧ written.take len = request.bytes := by
  by_cases fits : request.command.Fits
  · refine ⟨fits, ?_⟩
    by_cases large : request.bytes.length ≤ out.length
    · rw [encodeRequest_of_large fits large] at encoded
      cases encoded
      exact List.take_left
    · rw [encodeRequest_of_short fits (Nat.lt_of_not_le large)] at encoded
      cases encoded
  · rw [encodeRequest_of_not_fits fits] at encoded
    cases encoded

theorem decodeRequest_iff_encodeRequest (bytes : List UInt8) (request : Request) :
    decodeRequest bytes = .ok request ↔
      request.id ≠ 0 ∧ ∃ out len written,
        encodeRequest request out = (.ok len, written) ∧
          written.take len = bytes := by
  rw [decodeRequest_eq_ok_iff]
  constructor
  · rintro ⟨nonzero, fits, rfl⟩
    refine ⟨nonzero, request.bytes, _, _,
      encodeRequest_of_large fits (Nat.le_refl _), List.take_left⟩
  · rintro ⟨nonzero, out, len, written, encoded, rfl⟩
    obtain ⟨fits, whole⟩ := encodeRequest_eq_ok encoded
    exact ⟨nonzero, fits, whole⟩

/-- The codec is a bijection between the requests with a number that can be
encoded and the byte strings that are decoded: bytes decode to a request
exactly when its number is not zero and the encoder produces these bytes in
whatever buffer has room for them; what is encoded is decoded again; no two
byte strings decode to one request; and a failure leaves the buffer as it
was. -/
theorem frameCodec :
    (∀ bytes request,
      decodeRequest bytes = .ok request ↔
        request.id ≠ 0 ∧ ∃ out len written,
          encodeRequest request out = (.ok len, written) ∧ written.take len = bytes) ∧
    (∀ bytes request out,
      decodeRequest bytes = .ok request → bytes.length ≤ out.length →
        encodeRequest request out = (.ok bytes.length, bytes ++ out.drop bytes.length)) ∧
    (∀ request out len written,
      request.id ≠ 0 → encodeRequest request out = (.ok len, written) →
        decodeRequest (written.take len) = .ok request) ∧
    (∀ first second request,
      decodeRequest first = .ok request → decodeRequest second = .ok request → first = second) ∧
    ∀ request out error written,
      encodeRequest request out = (.error error, written) →
        written = out := by
  refine ⟨decodeRequest_iff_encodeRequest, ?_, ?_, ?_, ?_⟩
  · intro bytes request out decoded large
    obtain ⟨_, fits, rfl⟩ := decodeRequest_eq_ok_iff.mp decoded
    exact encodeRequest_of_large fits large
  · intro request out len written nonzero encoded
    obtain ⟨fits, whole⟩ := encodeRequest_eq_ok encoded
    exact decodeRequest_eq_ok_iff.mpr ⟨nonzero, fits, whole⟩
  · intro first second request decodedFirst decodedSecond
    rw [(decodeRequest_eq_ok_iff.mp decodedFirst).2.2,
      (decodeRequest_eq_ok_iff.mp decodedSecond).2.2]
  · intro request out error written encoded
    by_cases fits : request.command.Fits
    · by_cases large : request.bytes.length ≤ out.length
      · rw [encodeRequest_of_large fits large] at encoded
        cases encoded
      · rw [encodeRequest_of_short fits (Nat.lt_of_not_le large)]
          at encoded
        cases encoded
        rfl
    · rw [encodeRequest_of_not_fits fits] at encoded
      cases encoded
      rfl

-- The retired and unknown flags of a chunk are refused, not masked.
example :
    decodeRequest [1, 0, 0, 0, 7, 0x09, 1, 0, 0, 16, 0, 0xC7] =
        .ok ⟨7, .otaChunk true 4096 [0xC7]⟩ ∧
      decodeRequest [1, 0, 0, 0, 7, 0x09, 2, 0, 0, 16, 0, 0xC7] =
        .error .malformed := by
  decide +kernel

end Frame

end Ratspeak
