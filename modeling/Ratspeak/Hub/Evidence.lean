import Ratspeak.Hub.EvidenceText
import Ratspeak.Library.Decimal
import Ratspeak.Library.Loops

/-!
# The ring of moderation evidence

The records that the owner of a hub may look at: a queue that is bounded in
number, in estimated bytes and in age, with a running total of the bytes and a
count of what was dropped.
-/

namespace Ratspeak.Hub

open Ratspeak.Library (whileLoop whileLoop_total u64Max saturatingAdd
  saturatingAdd_of_le isControl Bytes)
open Ratspeak.Library.Tally (totalSize totalSize_cons totalSize_append)

def evidenceMaxEvents : Nat := 128
def evidenceMaxBytes : Nat := 64 * 1024
def evidenceExcerptBytes : Nat := 256

inductive EvidenceKind where
  | message | action | notice | join | part | moderation | trust | service
deriving DecidableEq, Repr

inductive EvidenceAction where
  | register | unregister | topic | mode | op | deop | voice | devoice | ban
  | unban | kick | invite | uninvite | klineAdded | klineRemoved
  | announceFailed | envelopeOversize | sendFailed
deriving DecidableEq, Repr

/-- What of the configuration the ring reads. -/
structure EvidenceConfig where
  maxNickBytes : Nat
  evidenceRetentionSecs : Nat
deriving DecidableEq, Repr

/-- The arguments of `push_evidence` besides the clocks. -/
structure EvidenceDraft where
  kind : EvidenceKind
  action : Option EvidenceAction
  count : Option Nat
  room : Option String
  sourceIdentity : Option (Bytes 16)
  sourceNickname : Option String
  targetIdentity : Option (Bytes 16)
  excerpt : Option String

/-- `HubEvidenceRecord` -/
structure EvidenceRecord where
  sequence : Nat
  observedAtMs : Nat
  observedAt : Nat
  kind : EvidenceKind
  action : Option EvidenceAction
  count : Option Nat
  room : Option String
  sourceIdentity : Option (Bytes 16)
  sourceNickname : Option String
  targetIdentity : Option (Bytes 16)
  excerpt : Option String
  estimatedBytes : Nat

structure EvidenceRing where
  evidence : List EvidenceRecord
  bytes : Nat
  sequence : Nat
  evicted : Nat

namespace EvidenceRing

def empty : EvidenceRing :=
  { evidence := [], bytes := 0, sequence := 0, evicted := 0 }

def evictOldest (ring : EvidenceRing) : EvidenceRing :=
  match ring.evidence with
  | [] => ring
  | evicted :: rest =>
      { ring with
        evidence := rest
        bytes := ring.bytes - evicted.estimatedBytes
        evicted := saturatingAdd ring.evicted 1 }

/-- A loop that evicts the oldest record while some condition holds. -/
def evictWhile (going : EvidenceRing → Bool) (ring : EvidenceRing) :
    Option EvidenceRing :=
  whileLoop going (fun now => some now.evictOldest)
    (ring.evidence.length + 1) ring

def holdsSome (ring : EvidenceRing) : Bool :=
  !ring.evidence.isEmpty

def holdsExpired (retentionSecs now : Nat) (ring : EvidenceRing) : Bool :=
  ring.evidence.head?.any fun entry =>
    seconds retentionSecs ≤ now - entry.observedAt

def holdsTooMuch (ring : EvidenceRing) : Bool :=
  evidenceMaxEvents < ring.evidence.length || evidenceMaxBytes < ring.bytes

def pruneEvidence (config : EvidenceConfig) (ring : EvidenceRing)
    (now : Nat) : Option EvidenceRing :=
  if config.evidenceRetentionSecs = 0 then ring.evictWhile holdsSome
  else ring.evictWhile (holdsExpired config.evidenceRetentionSecs now)

/-- The bytes of a text, when there is one. -/
def textBytes (text : Option String) : Nat :=
  text.elim 0 String.utf8ByteSize

/-- A ring whose last sequence number can be followed by another one. -/
def restart (ring : EvidenceRing) : Option EvidenceRing :=
  if ring.sequence = u64Max then
    (ring.evictWhile holdsSome).map fun emptied => { emptied with sequence := 0 }
  else some ring

/-- The record that is made of a draft. -/
def recordOf (config : EvidenceConfig) (now observedAtMs sequence : Nat)
    (draft : EvidenceDraft) : EvidenceRecord :=
  let sourceNickname := draft.sourceNickname.bind fun value =>
    boundedEvidenceText value config.maxNickBytes
  let excerpt := draft.excerpt.bind fun value =>
    boundedEvidenceText value evidenceExcerptBytes
  { sequence, observedAtMs, observedAt := now
    kind := draft.kind, action := draft.action, count := draft.count
    room := draft.room, sourceIdentity := draft.sourceIdentity
    sourceNickname, targetIdentity := draft.targetIdentity, excerpt
    estimatedBytes :=
      saturatingAdd
        (saturatingAdd (saturatingAdd 128 (textBytes draft.room)) (textBytes sourceNickname))
        (textBytes excerpt) }

def pushEvidence (config : EvidenceConfig) (ring : EvidenceRing)
    (now observedAtMs : Nat) (draft : EvidenceDraft) :
    Option EvidenceRing :=
  if config.evidenceRetentionSecs = 0 then some ring
  else
    (ring.pruneEvidence config now).bind fun pruned =>
    pruned.restart.bind fun restarted =>
    let sequence := restarted.sequence + 1
    let entry := recordOf config now observedAtMs sequence draft
    if evidenceMaxBytes < entry.estimatedBytes then
      some
        { restarted with
          sequence, evicted := saturatingAdd restarted.evicted 1 }
    else
      evictWhile holdsTooMuch
        { evidence := restarted.evidence ++ [entry]
          bytes := saturatingAdd restarted.bytes entry.estimatedBytes
          sequence, evicted := restarted.evicted }

/-! ## Evicting -/

/-- The bytes that are estimated for some records. -/
def estimateOf (evidence : List EvidenceRecord) : Nat :=
  totalSize EvidenceRecord.estimatedBytes evidence

/-- What a loop has dropped. -/
structure Shed (start now : EvidenceRing)
    (dropped : List EvidenceRecord) : Prop where
  evidence : start.evidence = dropped ++ now.evidence
  bytes : now.bytes = estimateOf now.evidence
  sequence : now.sequence = start.sequence
  evicted : now.evicted = saturatingAdd start.evicted dropped.length

theorem saturatingAdd_succ (first count : Nat) :
    saturatingAdd (saturatingAdd first count) 1 =
      saturatingAdd first (count + 1) := by
  unfold saturatingAdd
  omega

theorem evictOldest_cons {ring : EvidenceRing} {first : EvidenceRecord}
    {rest : List EvidenceRecord} (held : ring.evidence = first :: rest) :
    ring.evictOldest =
      { ring with
        evidence := rest
        bytes := ring.bytes - first.estimatedBytes
        evicted := saturatingAdd ring.evicted 1 } := by
  unfold evictOldest
  rw [held]

theorem Shed.step {start now : EvidenceRing} {dropped rest :
    List EvidenceRecord} {first : EvidenceRecord}
    (shed : Shed start now dropped) (held : now.evidence = first :: rest) :
    Shed start now.evictOldest (dropped ++ [first]) := by
  rw [evictOldest_cons held]
  refine ⟨?_, ?_, shed.sequence, ?_⟩
  · rw [shed.evidence, held, List.append_assoc]
    rfl
  · change now.bytes - first.estimatedBytes = estimateOf rest
    rw [shed.bytes, held, estimateOf, totalSize_cons, Nat.add_sub_cancel_left]
    rfl
  · change saturatingAdd now.evicted 1 = _
    rw [shed.evicted, saturatingAdd_succ, List.length_append]
    rfl

/-- A loop that stops at an empty ring comes to its end. -/
theorem evictWhile_total {going : EvidenceRing → Bool} {ring : EvidenceRing}
    (stops : ∀ now : EvidenceRing, now.evidence = [] → now.bytes = 0 → going now = false)
    (exact : ring.bytes = estimateOf ring.evidence) (small : ring.evicted ≤ u64Max) :
    ∃ final dropped, ring.evictWhile going = some final ∧
      Shed ring final dropped ∧ going final = false := by
  have round : ∀ now, (∃ dropped, Shed ring now dropped) →
      going now = true →
      ∃ next, some now.evictOldest = some next ∧
        (∃ more, Shed ring next more) ∧
        next.evidence.length < now.evidence.length := by
    intro now ⟨dropped, shed⟩ goes
    cases held : now.evidence with
    | nil =>
        have nothing : now.bytes = 0 := by
          rw [shed.bytes, held]
          rfl
        rw [stops now held nothing] at goes
        cases goes
    | cons first rest =>
        refine ⟨now.evictOldest, rfl, ⟨_, shed.step held⟩, ?_⟩
        rw [evictOldest_cons held]
        exact Nat.lt_succ_self _
  have start : Shed ring ring [] := by
    refine ⟨rfl, exact, rfl, ?_⟩
    exact (saturatingAdd_of_le (Nat.le_of_eq (Nat.add_zero _)) small).symm
  obtain ⟨final, ends, ⟨dropped, shed⟩, stopped⟩ :=
    whileLoop_total _ _ round ⟨[], start⟩ (Nat.le_succ ring.evidence.length)
  exact ⟨final, dropped, ends, shed, stopped⟩

end EvidenceRing

end Ratspeak.Hub
