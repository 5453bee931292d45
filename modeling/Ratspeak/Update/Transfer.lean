import Mathlib.Data.List.Infix
import Ratspeak.Update.Uploader

/-!
# A transfer over an unreliable channel

An app uploads a firmware image to a node.  Nothing is known of the channel
between them: what was sent may be lost, and may arrive late, out of order
and more than once.  The channel is therefore everything that was ever sent,
and at any time any of it may arrive.

An attempt begins with a reply in which the node says how much it holds.  An
attempt may end at any time, and another may begin.
-/

namespace Ratspeak

open Library

/-- The image, or the patch, that the node is to hold in the end. -/
structure UploadPayload where
  bytes : List UInt8
  length_lt : bytes.length < 2 ^ 32

/-- A chunk as it travels. -/
structure OtaChunk where
  ack : Bool
  offset : Nat
  data : List UInt8

inductive NodeReply where
  | begun (nextOffset chunkMax : Nat)
  | ok (nextOffset : Nat)
  | gap (nextOffset : Nat)
deriving DecidableEq

/-- The offset that the node reports. -/
def NodeReply.nextOffset : NodeReply → Nat
  | .begun nextOffset _ => nextOffset
  | .ok nextOffset => nextOffset
  | .gap nextOffset => nextOffset

/-! ## The node -/

/-- The bytes after a chunk: contiguous ones are appended, and of those that
are there already nothing is taken. -/
def appendChunk (held : List UInt8) (chunk : OtaChunk) : List UInt8 :=
  let skip := held.length - chunk.offset
  if skip < chunk.data.length then held ++ chunk.data.drop skip else held

/-- What the node does with a chunk, and what it answers. -/
def handleChunk (held : List UInt8) (chunk : OtaChunk) :
    List UInt8 × Option NodeReply :=
  if held.length < chunk.offset then (held, some (.gap held.length))
  else
    let next := appendChunk held chunk
    (next, if chunk.ack then some (.ok next.length) else none)

/-! ## Both parties and the channel -/

structure Transfer where
  uploader : Option Uploader
  held : List UInt8
  chunks : List OtaChunk
  replies : List NodeReply

inductive TransferEvent where
  | beginArrives (chunkMax : Nat)
  | begunArrives (index window ackTimeoutMs : Nat)
  | poll (nowMs : Nat) (forceAck : Bool)
  | chunkArrives (index : Nat)
  | replyArrives (index nowMs : Nat)
  | attemptEnds

namespace Transfer

/-- The configuration of an attempt. -/
def config (payload : UploadPayload) (chunkMax window ackTimeoutMs : Nat) : UploadConfig where
  total := payload.bytes.length
  chunkMax := chunkMax
  window := window % 2 ^ 16
  ackTimeoutMs := ackTimeoutMs
  total_lt := payload.length_lt
  window_lt := Nat.mod_lt _ (by decide)

/-- The node holds a part of the payload from an earlier transfer. -/
def start (payload : UploadPayload) (earlier : Nat) : Transfer where
  uploader := none
  held := payload.bytes.take earlier
  chunks := []
  replies := []

/-- Send the chunk that the uploader returned. -/
def send (transfer : Transfer) (payload : UploadPayload) :
    Option Chunk → Transfer
  | none => transfer
  | some chunk =>
      { transfer with
        chunks := transfer.chunks ++
          [{ ack := chunk.ack
             offset := chunk.offset
             data := (payload.bytes.drop chunk.offset).take chunk.len }] }

/-- Call the uploader of the attempt; an overflow would end the attempt. -/
def callUploader (transfer : Transfer) (payload : UploadPayload)
    (call : UploadCall) : Transfer :=
  match transfer.uploader with
  | none => transfer
  | some uploader =>
      match uploader.call call with
      | none => { transfer with uploader := none }
      | some (after, chunk) =>
          ({ transfer with uploader := some after }).send payload chunk

def step (payload : UploadPayload) (transfer : Transfer) :
    TransferEvent → Transfer
  | .beginArrives chunkMax =>
      { transfer with
        replies := transfer.replies ++ [.begun transfer.held.length chunkMax] }
  | .begunArrives index window ackTimeoutMs =>
      match transfer.replies[index]? with
      | some (.begun nextOffset chunkMax) =>
          { transfer with
            uploader := some (Uploader.new
              (config payload chunkMax window ackTimeoutMs) nextOffset) }
      | _ => transfer
  | .poll nowMs forceAck => transfer.callUploader payload (.nextWithAck nowMs forceAck)
  | .chunkArrives index =>
      match transfer.chunks[index]? with
      | none => transfer
      | some chunk =>
          let (held, reply) := handleChunk transfer.held chunk
          { transfer with
            held := held
            replies := transfer.replies ++ reply.toList }
  | .replyArrives index nowMs =>
      match transfer.replies[index]? with
      | some (.ok nextOffset) => transfer.callUploader payload (.onAck nextOffset nowMs)
      | some (.gap nextOffset) =>
          transfer.callUploader payload (.onGap nextOffset nowMs)
      | _ => transfer
  | .attemptEnds => { transfer with uploader := none }

/-! ## What both parties can rely on -/

/-- The node holds a prefix of the payload, every chunk in the channel is a
part of the payload, no report speaks of bytes that the node lacks, and the
uploader has been told nothing else. -/
structure Coherent (payload : UploadPayload) (transfer : Transfer) :
    Prop where
  held : transfer.held <+: payload.bytes
  chunks : ∀ chunk ∈ transfer.chunks, chunk.data <+: payload.bytes.drop chunk.offset
  replies : ∀ reply ∈ transfer.replies, reply.nextOffset ≤ transfer.held.length
  sound : ∀ uploader, transfer.uploader = some uploader → uploader.Sound
  total : ∀ uploader, transfer.uploader = some uploader →
    uploader.config.total = payload.bytes.length
  acked : ∀ uploader, transfer.uploader = some uploader → uploader.acked ≤ transfer.held.length

variable {payload : UploadPayload} {transfer : Transfer}

theorem coherent_start (payload : UploadPayload) (earlier : Nat) :
    (start payload earlier).Coherent payload := by
  constructor
  · exact List.take_prefix _ _
  · intro chunk among
    cases among
  · intro reply among
    cases among
  · intro uploader impossible
    cases impossible
  · intro uploader impossible
    cases impossible
  · intro uploader impossible
    cases impossible

/-- A part of the payload that starts at or before the end of a prefix
extends it to a prefix. -/
theorem prefix_appendChunk {held : List UInt8} {chunk : OtaChunk}
    {bytes : List UInt8} (isPrefix : held <+: bytes)
    (part : chunk.data <+: bytes.drop chunk.offset) (reaches : chunk.offset ≤ held.length) :
    appendChunk held chunk <+: bytes := by
  rw [appendChunk]
  split
  · obtain ⟨rest, whole⟩ := isPrefix
    obtain ⟨more, after⟩ := part
    have later : (bytes.drop chunk.offset).drop
        (held.length - chunk.offset) = rest := by
      rw [List.drop_drop, Nat.add_sub_cancel' reaches, ← whole, List.drop_left]
    rename_i short
    rw [← after, List.drop_append_of_le_length (Nat.le_of_lt short)] at later
    refine ⟨more, ?_⟩
    rw [List.append_assoc, later, whole]
  · exact isPrefix

theorem length_appendChunk (held : List UInt8) (chunk : OtaChunk) :
    held.length ≤ (appendChunk held chunk).length := by
  rw [appendChunk]
  split
  · rw [List.length_append]
    exact Nat.le_add_right _ _
  · exact Nat.le_refl _

/-- What a chunk leaves of the node, and what the node reports. -/
theorem handleChunk_spec {held : List UInt8} {chunk : OtaChunk}
    {bytes : List UInt8} (isPrefix : held <+: bytes)
    (part : chunk.data <+: bytes.drop chunk.offset) :
    (handleChunk held chunk).1 <+: bytes ∧
      held.length ≤ (handleChunk held chunk).1.length ∧
      ∀ reply ∈ (handleChunk held chunk).2,
        reply.nextOffset ≤ (handleChunk held chunk).1.length := by
  rw [handleChunk]
  split
  · refine ⟨isPrefix, Nat.le_refl _, ?_⟩
    intro reply among
    cases among
    exact Nat.le_refl _
  · rename_i reaches
    refine ⟨prefix_appendChunk isPrefix part (Nat.le_of_not_lt reaches),
      length_appendChunk held chunk, ?_⟩
    intro reply among
    dsimp only at among ⊢
    split at among
    · cases among
      exact Nat.le_refl _
    · cases among

theorem coherent_chunkArrives (coherent : transfer.Coherent payload)
    {chunk : OtaChunk} (sent : chunk ∈ transfer.chunks) :
    Coherent payload
      { transfer with
        held := (handleChunk transfer.held chunk).1
        replies := transfer.replies ++
          (handleChunk transfer.held chunk).2.toList } := by
  obtain ⟨isPrefix, longer, told⟩ :=
    handleChunk_spec coherent.held (coherent.chunks chunk sent)
  refine ⟨isPrefix, coherent.chunks, ?_, coherent.sound, coherent.total, ?_⟩
  · intro reply among
    rcases List.mem_append.mp among with earlier | now
    · exact Nat.le_trans (coherent.replies reply earlier) longer
    · exact told reply (Option.mem_toList.mp now)
  · intro uploader isUploader
    exact Nat.le_trans (coherent.acked uploader isUploader) longer

/-- A call of the uploader that tells it of no byte the node lacks. -/
theorem coherent_callUploader (coherent : transfer.Coherent payload) (call : UploadCall)
    (told : ∀ uploader after chunk, transfer.uploader = some uploader →
      uploader.call call = some (after, chunk) →
      after.acked ≤ transfer.held.length) :
    (transfer.callUploader payload call).Coherent payload := by
  rw [callUploader]
  cases isUploader : transfer.uploader with
  | none => exact coherent
  | some uploader =>
      have sound := coherent.sound uploader isUploader
      obtain ⟨after, chunk, called, answers⟩ :=
        Uploader.call_answers sound call
      have total := coherent.total uploader isUploader
      have acked := told uploader after chunk isUploader called
      have called_coherent :
          Coherent payload { transfer with uploader := some after } := by
        refine ⟨coherent.held, coherent.chunks, coherent.replies,
          fun other same => ?_, fun other same => ?_, fun other same => ?_⟩
        · rw [← Option.some.inj same]
          exact answers.sound
        · rw [← Option.some.inj same, answers.config]
          exact total
        · rw [← Option.some.inj same]
          exact acked
      dsimp only
      rw [called]
      cases chunk with
      | none => exact called_coherent
      | some chunk =>
          refine ⟨called_coherent.held, ?_, called_coherent.replies,
            called_coherent.sound, called_coherent.total,
            called_coherent.acked⟩
          intro sent among
          rcases List.mem_append.mp among with earlier | now
          · exact coherent.chunks sent earlier
          · rw [List.mem_singleton.mp now]
            exact List.take_prefix _ _

theorem coherent_step (coherent : transfer.Coherent payload) (event : TransferEvent) :
    (transfer.step payload event).Coherent payload := by
  cases event with
  | beginArrives chunkMax =>
      refine ⟨coherent.held, coherent.chunks, ?_, coherent.sound,
        coherent.total, coherent.acked⟩
      intro reply among
      rcases List.mem_append.mp among with earlier | now
      · exact coherent.replies reply earlier
      · rw [List.mem_singleton.mp now]
        exact Nat.le_refl _
  | begunArrives index window ackTimeoutMs =>
      rw [step]
      split
      · rename_i nextOffset chunkMax found
        have reported := coherent.replies _ (List.mem_of_getElem? found)
        refine ⟨coherent.held, coherent.chunks, coherent.replies,
          fun other same => ?_, fun other same => ?_, fun other same => ?_⟩
        · rw [← Option.some.inj same]
          exact Uploader.sound_new _ _
        · rw [← Option.some.inj same]
          rfl
        · rw [← Option.some.inj same]
          exact Nat.le_trans (Nat.min_le_left _ _) reported
      · exact coherent
  | poll nowMs forceAck =>
      apply coherent_callUploader coherent
      intro uploader after chunk isUploader called
      obtain ⟨next, piece, answered, same⟩ := Uploader.nextWithAck_acked
        (coherent.sound uploader isUploader) nowMs forceAck
      obtain ⟨rfl, rfl⟩ : next = after ∧ piece = chunk := by
        simpa [answered, Uploader.call] using called
      rw [same]
      exact coherent.acked uploader isUploader
  | chunkArrives index =>
      rw [step]
      split
      · exact coherent
      · rename_i chunk found
        exact coherent_chunkArrives coherent (List.mem_of_getElem? found)
  | replyArrives index nowMs =>
      rw [step]
      split
      · rename_i nextOffset found
        have reported := coherent.replies _ (List.mem_of_getElem? found)
        apply coherent_callUploader coherent
        rintro uploader after chunk isUploader called
        obtain ⟨rfl, -⟩ := Prod.mk.inj (Option.some.inj called)
        rw [Uploader.onAck_acked]
        exact Nat.max_le.mpr ⟨coherent.acked uploader isUploader,
          Nat.le_trans (Nat.min_le_left _ _) reported⟩
      · rename_i nextOffset found
        have reported := coherent.replies _ (List.mem_of_getElem? found)
        apply coherent_callUploader coherent
        rintro uploader after chunk isUploader called
        obtain ⟨rfl, -⟩ := Prod.mk.inj (Option.some.inj called)
        obtain ⟨-, -, same, -⟩ := Uploader.onGap_answers
          (coherent.sound uploader isUploader) nextOffset nowMs
        rw [same, Uploader.onAck_acked]
        exact Nat.max_le.mpr ⟨coherent.acked uploader isUploader,
          Nat.le_trans (Nat.min_le_left _ _) reported⟩
      · exact coherent
  | attemptEnds =>
      refine ⟨coherent.held, coherent.chunks, coherent.replies, ?_, ?_, ?_⟩
      · intro uploader impossible
        cases impossible
      · intro uploader impossible
        cases impossible
      · intro uploader impossible
        cases impossible

/-- Whatever the channel does: the node holds a prefix of the payload, the
uploader never counts more as acknowledged than the node holds, and an upload
that is complete has given the node the whole payload. -/
theorem transfer_run (payload : UploadPayload) (earlier : Nat) (events : List TransferEvent) :
    let transfer := runFrom (step payload) (start payload earlier) events
    transfer.held <+: payload.bytes ∧
      ∀ uploader, transfer.uploader = some uploader →
        uploader.acked ≤ transfer.held.length ∧
        (uploader.state = .complete → transfer.held = payload.bytes) := by
  have kept (transfer : Transfer) (event : TransferEvent)
      (coherent : transfer.Coherent payload) :
      (transfer.step payload event).Coherent payload :=
    coherent_step coherent event
  have coherent := invariant_of_forall_step kept events (coherent_start payload earlier)
  refine ⟨coherent.held, fun uploader isUploader => ?_⟩
  have acked := coherent.acked uploader isUploader
  refine ⟨acked, fun isComplete => ?_⟩
  have all := (Uploader.complete_iff (coherent.sound uploader isUploader)).mp isComplete
  rw [coherent.total uploader isUploader] at all
  exact coherent.held.eq_of_length_le (all ▸ acked)

end Transfer

end Ratspeak
