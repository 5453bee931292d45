import Mathlib.Algebra.Order.Group.Nat
import Mathlib.Data.Option.Basic
import Ratspeak.Library.Runs

/-!
# The upload window

The uploader decides which chunk of a firmware image goes out next.  It keeps
the node's offset as last reported, the cursor up to which it has offered
bytes, and the time by which an acknowledgement must return.  What it is told
by the node may be stale or beyond the end, and its clock may be anything.

Every sum, difference and product of the source is computed in a machine word
and checked: an operation that leaves its word yields no result at all.
-/

namespace Ratspeak

open Library

/-! ## Machine words -/

def checkedAdd (bits left right : Nat) : Option Nat :=
  if left + right < 2 ^ bits then some (left + right) else none

def checkedSub (left right : Nat) : Option Nat :=
  if right ≤ left then some (left - right) else none

def checkedMul (bits left right : Nat) : Option Nat :=
  if left * right < 2 ^ bits then some (left * right) else none

def saturatingAdd (bits left right : Nat) : Nat :=
  min (left + right) (2 ^ bits - 1)

theorem checkedAdd_eq {bits left right : Nat} (fits : left + right < 2 ^ bits) :
    checkedAdd bits left right = some (left + right) :=
  if_pos fits

theorem checkedSub_eq {left right : Nat} (fits : right ≤ left) :
    checkedSub left right = some (left - right) :=
  if_pos fits

theorem checkedMul_eq {bits left right : Nat} (fits : left * right < 2 ^ bits) :
    checkedMul bits left right = some (left * right) :=
  if_pos fits

/-! ## The uploader -/

def otaChunkDataMax : Nat := 431 - 6 - 5

/-- Re-sends of one window without progress before the transfer is given
up. -/
def uploadRetriesMax : Nat := 8

structure UploadConfig where
  total : Nat
  chunkMax : Nat
  window : Nat
  ackTimeoutMs : Nat
  total_lt : total < 2 ^ 32
  window_lt : window < 2 ^ 16

structure Chunk where
  offset : Nat
  len : Nat
  ack : Bool
deriving DecidableEq, Repr

inductive UploadState where
  | sending
  | complete
  | stalled
deriving DecidableEq, Repr

structure Uploader where
  config : UploadConfig
  acked : Nat
  next : Nat
  sinceAck : Nat
  ackDeadlineMs : Option Nat
  retries : Nat

namespace UploadConfig

/-- The configuration that an uploader works with. -/
def clamped (config : UploadConfig) : UploadConfig :=
  { config with
    chunkMax := max (min config.chunkMax otaChunkDataMax) 1
    window := max config.window 1
    window_lt := by
      have bound := config.window_lt
      omega }

/-- The bytes of a full window. -/
def windowBytes (config : UploadConfig) : Nat :=
  config.window * config.chunkMax

/-- The chunks after which an acknowledgement is asked for. -/
def halfWindow (config : UploadConfig) : Nat :=
  (config.window + 1) / 2

end UploadConfig

namespace Uploader

/-- Start or resume from an offset. -/
def new (config : UploadConfig) (start : Nat) : Uploader where
  config := config.clamped
  acked := min start config.total
  next := min start config.total
  sinceAck := 0
  ackDeadlineMs := none
  retries := 0

def state (uploader : Uploader) : UploadState :=
  if uploader.config.total ≤ uploader.acked then .complete
  else if uploadRetriesMax < uploader.retries then .stalled
  else .sending

def wakeAt (uploader : Uploader) : Option Nat :=
  uploader.ackDeadlineMs

/-- The acknowledgement deadline has passed. -/
def expired (uploader : Uploader) (nowMs : Nat) : Bool :=
  uploader.ackDeadlineMs.any fun deadline => deadline ≤ nowMs

/-- No acknowledgement in time: go back to the last confirmed offset. -/
def expire (uploader : Uploader) (nowMs : Nat) : Option Uploader :=
  if uploader.expired nowMs then
    (checkedAdd 32 uploader.retries 1).map fun retries =>
      { uploader with
        ackDeadlineMs := none
        next := uploader.acked
        sinceAck := 0
        retries := retries }
  else some uploader

/-- Offer the next chunk if the window has room for one. -/
def offer (uploader : Uploader) (nowMs : Nat) (forceAck : Bool) :
    Option (Uploader × Option Chunk) := do
  if uploader.state ≠ .sending ∨ uploader.config.total ≤ uploader.next then
    return (uploader, none)
  let inFlight ← checkedSub uploader.next uploader.acked
  let windowBytes ← checkedMul 32 uploader.config.window uploader.config.chunkMax
  if windowBytes ≤ inFlight then
    return (uploader, none)
  let left ← checkedSub uploader.config.total uploader.next
  let len := min left uploader.config.chunkMax % 2 ^ 16
  let next ← checkedAdd 32 uploader.next len
  let sinceAck ← checkedAdd 16 uploader.sinceAck 1
  let offered ← checkedSub next uploader.acked
  -- Ask twice per window, on the last chunk, and when the window fills.
  let ack := forceAck || decide (uploader.config.halfWindow ≤ sinceAck) ||
    decide (next = uploader.config.total) || decide (windowBytes ≤ offered)
  let asked := if ack then
      { uploader with
        next := next
        sinceAck := 0
        ackDeadlineMs :=
          some (saturatingAdd 64 nowMs uploader.config.ackTimeoutMs) }
    else { uploader with next := next, sinceAck := sinceAck }
  return (asked, some { offset := uploader.next, len := len, ack := ack })

def nextWithAck (uploader : Uploader) (nowMs : Nat) (forceAck : Bool) :
    Option (Uploader × Option Chunk) :=
  (uploader.expire nowMs).bind fun uploader => uploader.offer nowMs forceAck

/-- Apply an acknowledgement.  Older offsets do not move the cursor back. -/
def onAck (uploader : Uploader) (nextOffset nowMs : Nat) : Uploader :=
  let nextOffset := min nextOffset uploader.config.total
  let advanced := if uploader.acked < nextOffset then
      { uploader with acked := nextOffset, retries := 0 }
    else uploader
  let next := max advanced.next advanced.acked
  { advanced with
    next := next
    ackDeadlineMs := if advanced.acked < next then
        some (advanced.ackDeadlineMs.getD (saturatingAdd 64 nowMs advanced.config.ackTimeoutMs))
      else none }

/-- Apply a gap report and rewind the offered bytes. -/
def onGap (uploader : Uploader) (nextOffset nowMs : Nat) : Uploader :=
  let acknowledged := uploader.onAck nextOffset nowMs
  let nextOffset :=
    max (min nextOffset uploader.config.total) acknowledged.acked
  if nextOffset < acknowledged.next then
    { acknowledged with
      next := nextOffset
      sinceAck := 0
      ackDeadlineMs := none }
  else acknowledged

end Uploader

/-! ## Calls -/

inductive UploadCall where
  | next (nowMs : Nat)
  | nextWithAck (nowMs : Nat) (forceAck : Bool)
  | onAck (nextOffset nowMs : Nat)
  | onGap (nextOffset nowMs : Nat)

namespace Uploader

/-- The uploader after a call, and the chunk that the call returned; nothing
when a counter overflowed. -/
def call (uploader : Uploader) :
    UploadCall → Option (Uploader × Option Chunk)
  | .next nowMs => uploader.nextWithAck nowMs false
  | .nextWithAck nowMs forceAck => uploader.nextWithAck nowMs forceAck
  | .onAck nextOffset nowMs => some (uploader.onAck nextOffset nowMs, none)
  | .onGap nextOffset nowMs => some (uploader.onGap nextOffset nowMs, none)

end Uploader

/-- The clock of a call that asks for a chunk. -/
def UploadCall.asksAt : UploadCall → Option Nat
  | .next nowMs => some nowMs
  | .nextWithAck nowMs _ => some nowMs
  | .onAck _ _ => none
  | .onGap _ _ => none

namespace Uploader

/-- The call finds the acknowledgement deadline passed. -/
def expiresOn (uploader : Uploader) (call : UploadCall) : Bool :=
  call.asksAt.any uploader.expired

/-! ## What a call keeps -/

/-- The bytes that are offered and not acknowledged. -/
def inFlight (uploader : Uploader) : Nat :=
  uploader.next - uploader.acked

/-- What holds of an uploader between calls.  A deadline stands exactly while
something is awaited: there is none with nothing in flight, and there is one
whenever nothing more can go out. -/
structure Sound (uploader : Uploader) : Prop where
  chunkMax_pos : 1 ≤ uploader.config.chunkMax
  chunkMax_le : uploader.config.chunkMax ≤ otaChunkDataMax
  window_pos : 1 ≤ uploader.config.window
  acked_le : uploader.acked ≤ uploader.next
  next_le : uploader.next ≤ uploader.config.total
  sinceAck_le : uploader.sinceAck ≤ uploader.config.halfWindow
  inFlight_lt : uploader.inFlight < uploader.config.windowBytes + uploader.config.chunkMax
  calm : uploader.next = uploader.acked → uploader.ackDeadlineMs = none
  waits : uploader.acked < uploader.next →
    uploader.next = uploader.config.total ∨ uploader.config.windowBytes ≤ uploader.inFlight →
    uploader.ackDeadlineMs.isSome = true
  deadline_lt : ∀ deadline, uploader.ackDeadlineMs = some deadline → deadline < 2 ^ 64
  retries_le : uploader.retries ≤ uploadRetriesMax + 1
  silent : uploadRetriesMax < uploader.retries → uploader.next = uploader.acked
  finished : uploader.config.total ≤ uploader.acked → uploader.retries = 0

variable {uploader : Uploader}

theorem sound_new (config : UploadConfig) (start : Nat) :
    (new config start).Sound := by
  have bytes : 1 ≤ config.clamped.chunkMax :=
    Nat.le_max_right _ _
  refine
    { chunkMax_pos := bytes
      chunkMax_le := ?_
      window_pos := Nat.le_max_right _ _
      acked_le := Nat.le_refl _
      next_le := Nat.min_le_right _ _
      sinceAck_le := Nat.zero_le _
      inFlight_lt := ?_
      calm := fun _ => rfl
      waits := fun some => (Nat.lt_irrefl _ some).elim
      deadline_lt := ?_
      retries_le := Nat.zero_le _
      silent := fun many => (Nat.not_lt_zero _ many).elim
      finished := fun _ => rfl }
  · exact Nat.max_le.mpr ⟨Nat.min_le_right _ _, by decide⟩
  · simp only [inFlight, new, Nat.sub_self]
    omega
  · intro deadline impossible
    cases impossible

theorem windowBytes_lt (sound : uploader.Sound) :
    uploader.config.windowBytes < 2 ^ 32 := by
  have window := uploader.config.window_lt
  have bound : uploader.config.windowBytes ≤
      (2 ^ 16 - 1) * otaChunkDataMax :=
    Nat.mul_le_mul (by omega) sound.chunkMax_le
  exact Nat.lt_of_le_of_lt bound (by decide)

private theorem saturatingAdd_lt (left right : Nat) :
    saturatingAdd 64 left right < 2 ^ 64 :=
  Nat.lt_of_le_of_lt (Nat.min_le_right _ _) (by decide)

/-- What an expiry leaves. -/
theorem expire_eq (sound : uploader.Sound) (nowMs : Nat) :
    uploader.expire nowMs = some
      (if uploader.expired nowMs then
        { uploader with
          ackDeadlineMs := none
          next := uploader.acked
          sinceAck := 0
          retries := uploader.retries + 1 }
      else uploader) := by
  have fits : uploader.retries + 1 < 2 ^ 32 := by
    have bound := sound.retries_le
    rw [uploadRetriesMax] at bound
    omega
  rw [expire, checkedAdd_eq fits]
  split
  · rfl
  · rfl

/-- An expiry is possible only while retries are left. -/
theorem retries_of_expired (sound : uploader.Sound) {nowMs : Nat}
    (expired : uploader.expired nowMs = true) :
    uploader.retries ≤ uploadRetriesMax := by
  by_contra many
  have none := sound.calm (sound.silent (Nat.lt_of_not_le many))
  rw [Uploader.expired, none] at expired
  cases expired

/-- An expiry is possible only while bytes are awaited. -/
theorem acked_lt_of_expired (sound : uploader.Sound) {nowMs : Nat}
    (expired : uploader.expired nowMs = true) :
    uploader.acked < uploader.config.total := by
  have awaited : uploader.next ≠ uploader.acked := by
    intro calm
    rw [Uploader.expired, sound.calm calm] at expired
    cases expired
  have ackedLe := sound.acked_le
  have nextLe := sound.next_le
  omega

theorem sound_expired (sound : uploader.Sound) {nowMs : Nat}
    (expired : uploader.expired nowMs = true) :
    Sound
      { uploader with
        ackDeadlineMs := none
        next := uploader.acked
        sinceAck := 0
        retries := uploader.retries + 1 } := by
  refine
    { chunkMax_pos := sound.chunkMax_pos
      chunkMax_le := sound.chunkMax_le
      window_pos := sound.window_pos
      acked_le := Nat.le_refl _
      next_le := Nat.le_trans sound.acked_le sound.next_le
      sinceAck_le := Nat.zero_le _
      inFlight_lt := ?_
      calm := fun _ => rfl
      waits := fun some => (Nat.lt_irrefl _ some).elim
      deadline_lt := ?_
      retries_le := Nat.succ_le_succ (retries_of_expired sound expired)
      silent := fun _ => rfl
      finished := ?_ }
  · have bytes := sound.chunkMax_pos
    simp only [inFlight, Nat.sub_self]
    omega
  · intro deadline impossible
    cases impossible
  · intro all
    have short := acked_lt_of_expired sound expired
    exact absurd all (Nat.not_le_of_lt short)

/-- What an offer is: nothing while the uploader must wait, and otherwise the
chunk at the cursor. -/
theorem offer_cases (sound : uploader.Sound) (nowMs : Nat) (forceAck : Bool) :
    (uploader.offer nowMs forceAck = some (uploader, none) ∧
        (uploader.state ≠ .sending ∨
          uploader.config.total ≤ uploader.next ∨
          uploader.config.windowBytes ≤ uploader.inFlight)) ∨
      ∃ len ack deadline,
        uploader.state = .sending ∧
        uploader.next < uploader.config.total ∧
        uploader.inFlight < uploader.config.windowBytes ∧
        len = min (uploader.config.total - uploader.next) uploader.config.chunkMax ∧
        deadline < 2 ^ 64 ∧
        (ack = false →
          uploader.sinceAck + 1 < uploader.config.halfWindow ∧
          uploader.next + len ≠ uploader.config.total ∧
          uploader.next + len - uploader.acked < uploader.config.windowBytes) ∧
        uploader.offer nowMs forceAck = some
          (if ack then
            { uploader with
              next := uploader.next + len
              sinceAck := 0
              ackDeadlineMs := some deadline }
          else
            { uploader with
              next := uploader.next + len
              sinceAck := uploader.sinceAck + 1 },
            some { offset := uploader.next, len := len, ack := ack }) := by
  have ackedLe := sound.acked_le
  have nextLe := sound.next_le
  have total := uploader.config.total_lt
  have windowLt := uploader.config.window_lt
  have chunkLe := sound.chunkMax_le
  have sinceAck := sound.sinceAck_le
  rw [UploadConfig.halfWindow] at sinceAck
  rw [otaChunkDataMax] at chunkLe
  rw [offer]
  by_cases idle : uploader.state ≠ .sending ∨ uploader.config.total ≤ uploader.next
  · rw [if_pos idle]
    refine Or.inl ⟨rfl, ?_⟩
    rcases idle with waiting | finished
    · exact Or.inl waiting
    · exact Or.inr (Or.inl finished)
  · rw [if_neg idle, checkedSub_eq ackedLe,
      checkedMul_eq (windowBytes_lt sound)]
    rw [not_or, not_not] at idle
    dsimp only [Option.bind_eq_bind, Option.bind_some]
    have window : uploader.config.window * uploader.config.chunkMax =
        uploader.config.windowBytes :=
      rfl
    have flight : uploader.next - uploader.acked = uploader.inFlight :=
      rfl
    rw [window, flight]
    by_cases full : uploader.config.windowBytes ≤ uploader.inFlight
    · rw [if_pos full]
      exact Or.inl ⟨rfl, Or.inr (Or.inr full)⟩
    · rw [if_neg full]
      right
      have short : min (uploader.config.total - uploader.next)
          uploader.config.chunkMax % 2 ^ 16 =
          min (uploader.config.total - uploader.next) uploader.config.chunkMax :=
        Nat.mod_eq_of_lt (by omega)
      rw [checkedSub_eq nextLe, Option.bind_some, short]
      generalize isLen : min (uploader.config.total - uploader.next)
        uploader.config.chunkMax = len
      have fits : uploader.next + len < 2 ^ 32 := by
        omega
      have counted : uploader.sinceAck + 1 < 2 ^ 16 := by
        omega
      have later : uploader.acked ≤ uploader.next + len := by
        omega
      rw [checkedAdd_eq fits, Option.bind_some, checkedAdd_eq counted,
        Option.bind_some, checkedSub_eq later, Option.bind_some]
      refine ⟨len, _, _, idle.1, Nat.lt_of_not_le idle.2,
        Nat.lt_of_not_le full, rfl, saturatingAdd_lt nowMs _, ?_, rfl⟩
      intro unasked
      simp only [Bool.or_eq_false_iff, decide_eq_false_iff_not, Nat.not_le] at unasked
      exact ⟨unasked.1.1.2, unasked.1.2, unasked.2⟩

/-- A chunk that goes out keeps what holds between calls. -/
theorem sound_offered (sound : uploader.Sound) {len deadline : Nat}
    {ack : Bool} (open_ : uploader.inFlight < uploader.config.windowBytes)
    (more : uploader.next < uploader.config.total) (isSending : uploader.state = .sending)
    (isLen : len = min (uploader.config.total - uploader.next) uploader.config.chunkMax)
    (deadline_lt : deadline < 2 ^ 64) (unasked : ack = false →
      uploader.sinceAck + 1 < uploader.config.halfWindow ∧
      uploader.next + len ≠ uploader.config.total ∧
      uploader.next + len - uploader.acked < uploader.config.windowBytes) :
    Sound
      (if ack then
        { uploader with
          next := uploader.next + len
          sinceAck := 0
          ackDeadlineMs := some deadline }
      else
        { uploader with
          next := uploader.next + len
          sinceAck := uploader.sinceAck + 1 }) := by
  have ackedLe := sound.acked_le
  have chunkPos := sound.chunkMax_pos
  have unstalled : ¬ uploadRetriesMax < uploader.retries := by
    intro many
    rw [state, if_pos many] at isSending
    split at isSending
    · cases isSending
    · cases isSending
  rw [inFlight] at open_
  cases ack with
  | true =>
      rw [if_pos rfl]
      refine
        { chunkMax_pos := chunkPos
          chunkMax_le := sound.chunkMax_le
          window_pos := sound.window_pos
          acked_le := Nat.le_trans ackedLe (Nat.le_add_right _ _)
          next_le := ?_
          sinceAck_le := Nat.zero_le _
          inFlight_lt := ?_
          calm := ?_
          waits := fun _ _ => rfl
          deadline_lt := fun found isFound => ?_
          retries_le := sound.retries_le
          silent := fun many => (unstalled many).elim
          finished := sound.finished }
      · dsimp only
        omega
      · dsimp only [inFlight]
        omega
      · dsimp only
        omega
      · rw [← Option.some.inj isFound]
        exact deadline_lt
  | false =>
      obtain ⟨few, notLast, within⟩ := unasked rfl
      rw [if_neg Bool.false_ne_true]
      refine
        { chunkMax_pos := chunkPos
          chunkMax_le := sound.chunkMax_le
          window_pos := sound.window_pos
          acked_le := Nat.le_trans ackedLe (Nat.le_add_right _ _)
          next_le := ?_
          sinceAck_le := Nat.le_of_lt few
          inFlight_lt := ?_
          calm := ?_
          waits := fun _ stuck => ?_
          deadline_lt := sound.deadline_lt
          retries_le := sound.retries_le
          silent := fun many => (unstalled many).elim
          finished := sound.finished }
      · dsimp only
        omega
      · dsimp only [inFlight]
        omega
      · dsimp only
        omega
      · dsimp only [inFlight] at stuck
        omega

theorem sound_onAck (sound : uploader.Sound) (nextOffset nowMs : Nat) :
    (uploader.onAck nextOffset nowMs).Sound := by
  have ackedLe := sound.acked_le
  have nextLe := sound.next_le
  have flight := sound.inFlight_lt
  have chunkPos := sound.chunkMax_pos
  have deadlines (known : Option Nat)
      (small : ∀ deadline, known = some deadline → deadline < 2 ^ 64) :
      known.getD (saturatingAdd 64 nowMs uploader.config.ackTimeoutMs) <
        2 ^ 64 := by
    cases known with
    | none => exact saturatingAdd_lt nowMs _
    | some deadline => exact small deadline rfl
  rw [inFlight] at flight
  rw [onAck]
  by_cases ahead : uploader.acked < min nextOffset uploader.config.total
  · rw [if_pos ahead]
    refine
      { chunkMax_pos := chunkPos
        chunkMax_le := sound.chunkMax_le
        window_pos := sound.window_pos
        acked_le := Nat.le_max_right _ _
        next_le := Nat.max_le.mpr ⟨nextLe, Nat.min_le_right _ _⟩
        sinceAck_le := sound.sinceAck_le
        inFlight_lt := ?_
        calm := fun same => ?_
        waits := fun some _ => ?_
        deadline_lt := fun deadline isDeadline => ?_
        retries_le := Nat.zero_le _
        silent := fun many => (Nat.not_lt_zero _ many).elim
        finished := fun _ => rfl }
    · dsimp only [inFlight]
      omega
    · dsimp only at same ⊢
      rw [if_neg (by omega)]
    · dsimp only at some ⊢
      rw [if_pos some]
      rfl
    · dsimp only at isDeadline
      split at isDeadline
      · rw [← Option.some.inj isDeadline]
        exact deadlines _ sound.deadline_lt
      · cases isDeadline
  · rw [if_neg ahead]
    have kept : max uploader.next uploader.acked = uploader.next :=
      Nat.max_eq_left ackedLe
    refine
      { chunkMax_pos := chunkPos
        chunkMax_le := sound.chunkMax_le
        window_pos := sound.window_pos
        acked_le := Nat.le_max_right _ _
        next_le := Nat.max_le.mpr ⟨nextLe, Nat.le_trans ackedLe nextLe⟩
        sinceAck_le := sound.sinceAck_le
        inFlight_lt := ?_
        calm := fun same => ?_
        waits := fun some _ => ?_
        deadline_lt := fun deadline isDeadline => ?_
        retries_le := sound.retries_le
        silent := fun many => ?_
        finished := sound.finished }
    · dsimp only [inFlight]
      omega
    · dsimp only at same ⊢
      rw [if_neg (by omega)]
    · dsimp only at some ⊢
      rw [if_pos some]
      rfl
    · dsimp only at isDeadline
      split at isDeadline
      · rw [← Option.some.inj isDeadline]
        exact deadlines _ sound.deadline_lt
      · cases isDeadline
    · exact kept.trans (sound.silent many)

theorem onAck_config (uploader : Uploader) (nextOffset nowMs : Nat) :
    (uploader.onAck nextOffset nowMs).config = uploader.config := by
  simp only [onAck]
  split
  · rfl
  · rfl

theorem onAck_acked (uploader : Uploader) (nextOffset nowMs : Nat) :
    (uploader.onAck nextOffset nowMs).acked =
      max uploader.acked (min nextOffset uploader.config.total) := by
  simp only [onAck]
  split
  · rename_i ahead
    exact (Nat.max_eq_right (Nat.le_of_lt ahead)).symm
  · rename_i behind
    exact (Nat.max_eq_left (Nat.le_of_not_lt behind)).symm

theorem onAck_retries (uploader : Uploader) (nextOffset nowMs : Nat) :
    (uploader.onAck nextOffset nowMs).retries =
      if uploader.acked < (uploader.onAck nextOffset nowMs).acked then 0
      else uploader.retries := by
  rw [onAck_acked]
  simp only [onAck]
  split
  · rename_i ahead
    rw [if_pos (Nat.lt_of_lt_of_le ahead (Nat.le_max_right _ _))]
  · rename_i behind
    rw [Nat.max_eq_left (Nat.le_of_not_lt behind), if_neg (Nat.lt_irrefl _)]

/-- A gap report is an acknowledgement that may also rewind the cursor. -/
theorem onGap_cases (uploader : Uploader) (nextOffset nowMs : Nat) :
    uploader.onGap nextOffset nowMs = uploader.onAck nextOffset nowMs ∨
      uploader.onGap nextOffset nowMs =
        { uploader.onAck nextOffset nowMs with
          next := (uploader.onAck nextOffset nowMs).acked
          sinceAck := 0
          ackDeadlineMs := none } := by
  have covered :
      max (min nextOffset uploader.config.total) (uploader.onAck nextOffset nowMs).acked =
      (uploader.onAck nextOffset nowMs).acked := by
    rw [onAck_acked]
    omega
  simp only [onGap, covered]
  split
  · exact Or.inr rfl
  · exact Or.inl rfl

/-- A rewound cursor awaits nothing. -/
theorem sound_rewound (sound : uploader.Sound) :
    Sound
      { uploader with
        next := uploader.acked
        sinceAck := 0
        ackDeadlineMs := none } := by
  refine
    { chunkMax_pos := sound.chunkMax_pos
      chunkMax_le := sound.chunkMax_le
      window_pos := sound.window_pos
      acked_le := Nat.le_refl _
      next_le := Nat.le_trans sound.acked_le sound.next_le
      sinceAck_le := Nat.zero_le _
      inFlight_lt := ?_
      calm := fun _ => rfl
      waits := fun some => (Nat.lt_irrefl _ some).elim
      deadline_lt := ?_
      retries_le := sound.retries_le
      silent := fun _ => rfl
      finished := sound.finished }
  · have bytes := sound.chunkMax_pos
    simp only [inFlight, Nat.sub_self]
    omega
  · intro deadline impossible
    cases impossible

/-! ## What a call does -/

/-- The cursor of a call: an expiry moves it back first. -/
def cursorOn (uploader : Uploader) (call : UploadCall) : Nat :=
  if uploader.expiresOn call then uploader.acked else uploader.next

/-- Everything that one call of a sound uploader can do. -/
structure Answers (before : Uploader) (call : UploadCall)
    (after : Uploader) (chunk : Option Chunk) : Prop where
  sound : after.Sound
  config : after.config = before.config
  progress : before.acked ≤ after.acked
  retries : after.retries =
    if before.acked < after.acked then 0
    else if before.expiresOn call then before.retries + 1
    else before.retries
  piece : ∀ piece, chunk = some piece →
    piece.offset = before.cursorOn call ∧ 0 < piece.len ∧
      after.next = piece.offset + piece.len ∧
      piece.len ≤ before.config.chunkMax
  awake : call.asksAt.isSome = true → chunk = none →
    after.state = .sending → after.wakeAt.isSome = true

/-- An uploader with nothing to offer has a deadline. -/
private theorem awake_of_idle (sound : uploader.Sound) (idle : uploader.state ≠ .sending ∨
      uploader.config.total ≤ uploader.next ∨
      uploader.config.windowBytes ≤ uploader.inFlight)
    (isSending : uploader.state = .sending) :
    uploader.wakeAt.isSome = true := by
  have unfinished : ¬ uploader.config.total ≤ uploader.acked := by
    intro all
    rw [state, if_pos all] at isSending
    cases isSending
  have room : 0 < uploader.config.windowBytes :=
    Nat.mul_pos sound.window_pos sound.chunkMax_pos
  have nextLe := sound.next_le
  apply sound.waits
  · rcases idle with waiting | finished | full
    · exact (waiting isSending).elim
    · omega
    · rw [inFlight] at full
      omega
  · rcases idle with waiting | finished | full
    · exact (waiting isSending).elim
    · exact Or.inl (Nat.le_antisymm nextLe finished)
    · exact Or.inr full

private theorem offer_answers (sound : uploader.Sound) (nowMs : Nat) (forceAck : Bool) :
    ∃ after chunk,
      uploader.offer nowMs forceAck = some (after, chunk) ∧
      after.Sound ∧ after.config = uploader.config ∧
      after.acked = uploader.acked ∧ after.retries = uploader.retries ∧
      (∀ piece, chunk = some piece →
        piece.offset = uploader.next ∧ 0 < piece.len ∧
          after.next = piece.offset + piece.len ∧
          piece.len ≤ uploader.config.chunkMax) ∧
      (chunk = none → after.state = .sending →
        after.wakeAt.isSome = true) := by
  rcases offer_cases sound nowMs forceAck with
    ⟨offered, idle⟩ | ⟨len, ack, deadline, isSending, more, room, isLen,
      deadline_lt, unasked, offered⟩
  · refine ⟨uploader, none, offered, sound, rfl, rfl, rfl, ?_,
      fun _ => awake_of_idle sound idle⟩
    intro piece impossible
    cases impossible
  · have kept := sound_offered sound room more isSending isLen deadline_lt
      unasked
    have chunkPos := sound.chunkMax_pos
    refine ⟨_, _, offered, kept, ?_, ?_, ?_, ?_, ?_⟩
    · cases ack with
      | true => rfl
      | false => rfl
    · cases ack with
      | true => rfl
      | false => rfl
    · cases ack with
      | true => rfl
      | false => rfl
    · intro piece isPiece
      rw [← Option.some.inj isPiece]
      refine ⟨rfl, ?_, ?_, ?_⟩
      · dsimp only
        omega
      · cases ack with
        | true => rfl
        | false => rfl
      · dsimp only
        omega
    · intro impossible
      cases impossible

/-- Asking for a chunk never overflows a counter. -/
theorem nextWithAck_answers (sound : uploader.Sound) {call : UploadCall}
    {nowMs : Nat} (asks : call.asksAt = some nowMs) (forceAck : Bool) :
    ∃ after chunk,
      uploader.nextWithAck nowMs forceAck = some (after, chunk) ∧
      uploader.Answers call after chunk := by
  have expires : uploader.expiresOn call = uploader.expired nowMs := by
    rw [expiresOn, asks]
    rfl
  rw [nextWithAck, expire_eq sound, Option.bind_some]
  by_cases expired : uploader.expired nowMs = true
  · rw [if_pos expired]
    obtain ⟨after, chunk, offered, kept, config, acked, retries, piece,
      awake⟩ := offer_answers (sound_expired sound expired) nowMs forceAck
    refine ⟨after, chunk, offered, kept, config, Nat.le_of_eq acked.symm, ?_,
      ?_, fun _ => awake⟩
    · rw [acked, if_neg (Nat.lt_irrefl _), expires, if_pos expired]
      exact retries
    · rw [cursorOn, expires, if_pos expired]
      exact piece
  · rw [if_neg expired]
    obtain ⟨after, chunk, offered, kept, config, acked, retries, piece,
      awake⟩ := offer_answers sound nowMs forceAck
    refine ⟨after, chunk, offered, kept, config, Nat.le_of_eq acked.symm, ?_,
      ?_, fun _ => awake⟩
    · rw [acked, if_neg (Nat.lt_irrefl _), expires, if_neg expired]
      exact retries
    · rw [cursorOn, expires, if_neg expired]
      exact piece

/-- Asking for a chunk acknowledges nothing. -/
theorem nextWithAck_acked (sound : uploader.Sound) (nowMs : Nat) (forceAck : Bool) :
    ∃ after chunk,
      uploader.nextWithAck nowMs forceAck = some (after, chunk) ∧
      after.acked = uploader.acked := by
  rw [nextWithAck, expire_eq sound, Option.bind_some]
  by_cases expired : uploader.expired nowMs = true
  · rw [if_pos expired]
    obtain ⟨after, chunk, offered, -, -, acked, -⟩ :=
      offer_answers (sound_expired sound expired) nowMs forceAck
    exact ⟨after, chunk, offered, acked⟩
  · rw [if_neg expired]
    obtain ⟨after, chunk, offered, -, -, acked, -⟩ :=
      offer_answers sound nowMs forceAck
    exact ⟨after, chunk, offered, acked⟩

theorem onGap_answers (sound : uploader.Sound) (nextOffset nowMs : Nat) :
    (uploader.onGap nextOffset nowMs).Sound ∧
      (uploader.onGap nextOffset nowMs).config = uploader.config ∧
      (uploader.onGap nextOffset nowMs).acked = (uploader.onAck nextOffset nowMs).acked ∧
      (uploader.onGap nextOffset nowMs).retries =
        (uploader.onAck nextOffset nowMs).retries := by
  have kept := sound_onAck sound nextOffset nowMs
  have config := onAck_config uploader nextOffset nowMs
  rcases onGap_cases uploader nextOffset nowMs with same | rewound
  · rw [same]
    exact ⟨kept, config, rfl, rfl⟩
  · rw [rewound]
    exact ⟨sound_rewound kept, config, rfl, rfl⟩

/-- No call of a sound uploader overflows a counter. -/
theorem call_answers (sound : uploader.Sound) (call : UploadCall) :
    ∃ after chunk, uploader.call call = some (after, chunk) ∧
      uploader.Answers call after chunk := by
  cases call with
  | next nowMs => exact nextWithAck_answers sound rfl false
  | nextWithAck nowMs forceAck => exact nextWithAck_answers sound rfl forceAck
  | onAck nextOffset nowMs =>
      refine ⟨_, _, rfl, sound_onAck sound nextOffset nowMs,
        onAck_config uploader nextOffset nowMs, ?_,
        onAck_retries uploader nextOffset nowMs, ?_, ?_⟩
      · rw [onAck_acked]
        exact Nat.le_max_left _ _
      · intro piece impossible
        cases impossible
      · intro impossible
        cases impossible
  | onGap nextOffset nowMs =>
      obtain ⟨kept, config, acked, retries⟩ :=
        onGap_answers sound nextOffset nowMs
      refine ⟨_, _, rfl, kept, config, ?_, ?_, ?_, ?_⟩
      · rw [acked, onAck_acked]
        exact Nat.le_max_left _ _
      · rw [retries, acked]
        exact onAck_retries uploader nextOffset nowMs
      · intro piece impossible
        cases impossible
      · intro impossible
        cases impossible

/-! ## Runs -/

/-- The uploader after some calls, unless a counter overflowed. -/
def run (uploader : Uploader) : List UploadCall → Option Uploader
  | [] => some uploader
  | call :: rest => (uploader.call call).bind fun answer => answer.1.run rest

/-- How many deadlines have expired since the acknowledged offset advanced,
at the end of some calls, given their number before. -/
def silentExpiries (uploader : Uploader) (count : Nat) :
    List UploadCall → Nat
  | [] => count
  | call :: rest =>
      match uploader.call call with
      | none => count
      | some (after, _) =>
          silentExpiries after
            (if uploader.acked < after.acked then 0
            else if uploader.expiresOn call then count + 1
            else count)
            rest

/-- The retries of an uploader are its silent expiries. -/
theorem run_sound (sound : uploader.Sound) (calls : List UploadCall) :
    ∃ after, uploader.run calls = some after ∧ after.Sound ∧
      after.config = uploader.config ∧
      after.retries = uploader.silentExpiries uploader.retries calls := by
  induction calls generalizing uploader with
  | nil => exact ⟨uploader, rfl, sound, rfl, rfl⟩
  | cons call rest ih =>
      obtain ⟨next, chunk, called, answers⟩ := call_answers sound call
      obtain ⟨after, ran, kept, config, retries⟩ :=
        ih answers.sound
      refine ⟨after, ?_, kept, config.trans answers.config, ?_⟩
      · rw [run, called, Option.bind_some]
        exact ran
      · rw [silentExpiries, called]
        dsimp only
        rw [retries, answers.retries]

theorem stalled_iff (sound : uploader.Sound) :
    uploader.state = .stalled ↔ uploader.retries = uploadRetriesMax + 1 := by
  have most := sound.retries_le
  rw [state]
  split
  · rename_i all
    have none := sound.finished all
    rw [none]
    decide
  · split
    · rename_i many
      exact ⟨fun _ => Nat.le_antisymm most many, fun _ => rfl⟩
    · rename_i few
      constructor
      · intro impossible
        cases impossible
      · intro exactly
        rw [exactly] at few
        exact (few (Nat.lt_succ_self _)).elim

/-- Only acknowledged progress ends a stall. -/
theorem Answers.unstalled {call : UploadCall} {after : Uploader}
    {chunk : Option Chunk} (answers : uploader.Answers call after chunk)
    (sound : uploader.Sound) (stalled : uploader.state = .stalled)
    (resumed : after.state ≠ .stalled) : uploader.acked < after.acked := by
  by_contra silent
  apply resumed
  have exhausted := (stalled_iff sound).mp stalled
  have counted := answers.retries
  have most := answers.sound.retries_le
  rw [if_neg silent] at counted
  apply (stalled_iff answers.sound).mpr
  split at counted
  · omega
  · exact counted.trans exhausted

theorem complete_iff (sound : uploader.Sound) :
    uploader.state = .complete ↔ uploader.acked = uploader.config.total := by
  have within := Nat.le_trans sound.acked_le sound.next_le
  rw [state]
  split
  · rename_i all
    exact ⟨fun _ => Nat.le_antisymm within all, fun _ => rfl⟩
  · rename_i short
    constructor
    · intro impossible
      split at impossible
      · cases impossible
      · cases impossible
    · intro all
      exact (short (Nat.le_of_eq all.symm)).elim

/-- From every start and after any calls: no counter has overflowed; the
acknowledged offset, the cursor and the end stand in order; less than a
window and a chunk is in flight; the uploader is complete exactly if all is
acknowledged, and stalled exactly after one silent expiry more than the
retries it has.  A further call never loses acknowledged progress, ends a
stall by such progress only, returns chunks within bounds that start at the
cursor, and leaves a time to wake when it returns none. -/
theorem upload_run (config : UploadConfig) (start : Nat) (calls : List UploadCall) :
    ∃ uploader,
      (new config start).run calls = some uploader ∧
      uploader.acked ≤ uploader.next ∧
      uploader.next ≤ config.total ∧
      uploader.inFlight < config.clamped.windowBytes + config.clamped.chunkMax ∧
      (uploader.state = .complete ↔ uploader.acked = config.total) ∧
      (new config start).silentExpiries 0 calls ≤ uploadRetriesMax + 1 ∧
      (uploader.state = .stalled ↔
        (new config start).silentExpiries 0 calls = uploadRetriesMax + 1) ∧
      ∀ call, ∃ after chunk,
        uploader.call call = some (after, chunk) ∧
        uploader.acked ≤ after.acked ∧
        (uploader.state = .stalled → after.state ≠ .stalled → uploader.acked < after.acked) ∧
        (∀ piece, chunk = some piece →
          piece.offset = uploader.cursorOn call ∧ 0 < piece.len ∧
            piece.offset + piece.len ≤ config.total ∧
            piece.len ≤ max (min config.chunkMax otaChunkDataMax) 1) ∧
        (call.asksAt.isSome = true → chunk = none →
          after.state = .sending → after.wakeAt.isSome = true) := by
  obtain ⟨uploader, ran, sound, isConfig, retries⟩ :=
    run_sound (sound_new config start) calls
  have counted : uploader.retries =
      (new config start).silentExpiries 0 calls :=
    retries
  have isClamped : uploader.config = config.clamped :=
    isConfig
  have total : uploader.config.total = config.total := by
    rw [isClamped]
    rfl
  refine ⟨uploader, ran, sound.acked_le, ?_, ?_, ?_, ?_, ?_, ?_⟩
  · rw [← total]
    exact sound.next_le
  · rw [← isClamped]
    exact sound.inFlight_lt
  · rw [← total]
    exact complete_iff sound
  · rw [← counted]
    exact sound.retries_le
  · rw [← counted]
    exact stalled_iff sound
  · intro call
    obtain ⟨after, chunk, called, answers⟩ := call_answers sound call
    refine ⟨after, chunk, called, answers.progress, answers.unstalled sound, ?_, answers.awake⟩
    intro piece isPiece
    obtain ⟨starts, some, moved, short⟩ := answers.piece piece isPiece
    refine ⟨starts, some, ?_, ?_⟩
    · rw [← moved, ← total, ← answers.config]
      exact answers.sound.next_le
    · rw [isClamped] at short
      exact short

/-- A chunk that goes out after a part of a chunk was acknowledged leaves
more than a window in flight. -/
theorem upload_beyondWindow :
    let config : UploadConfig :=
      { total := 1000
        chunkMax := 100
        window := 4
        ackTimeoutMs := 1000
        total_lt := by decide
        window_lt := by decide }
    ∃ uploader,
      (new config 0).run [.next 0, .next 0, .next 0, .next 0, .onAck 50 10,
        .next 10] = some uploader ∧
      config.window * config.chunkMax < uploader.inFlight :=
  ⟨_, rfl, by decide⟩

end Uploader

end Ratspeak
