import Ratspeak.Hub.Evidence

/-!
# Runs of the evidence ring

Over pushes and prunes with any texts the running total stays exact, both
limits hold, and what was dropped is counted up to the largest number.  Where
the clock does not go back, a prune leaves nothing that is too old.
-/

namespace Ratspeak.Hub

open Ratspeak.Library (u64Max saturatingAdd saturatingAdd_of_le)
open Ratspeak.Library.Tally (totalSize totalSize_cons totalSize_append)

/-- The nickname and the excerpt of a record are safe to look at. -/
structure SafeRecord (config : EvidenceConfig) (entry : EvidenceRecord) :
    Prop where
  nickname : ∀ text, entry.sourceNickname = some text → SafeText config.maxNickBytes text
  excerpt : ∀ text, entry.excerpt = some text → SafeText evidenceExcerptBytes text

/-- What holds of a ring after a number of records were made, apart from the
two limits. -/
structure Accounted (config : EvidenceConfig) (made : Nat)
    (ring : EvidenceRing) : Prop where
  bytes : ring.bytes = EvidenceRing.estimateOf ring.evidence
  ordered : ring.evidence.Pairwise fun first second =>
    first.sequence < second.sequence
  latest : ∀ entry ∈ ring.evidence, entry.sequence ≤ ring.sequence
  small : ring.sequence ≤ u64Max
  held : ring.evidence.length ≤ made
  evicted : ring.evicted = min (made - ring.evidence.length) u64Max
  safe : ∀ entry ∈ ring.evidence, SafeRecord config entry

/-- The ring is within both limits, and without a retention it is empty. -/
structure Contained (config : EvidenceConfig) (made : Nat)
    (ring : EvidenceRing) : Prop where
  accounted : Accounted config made ring
  events : ring.evidence.length ≤ evidenceMaxEvents
  total : ring.bytes ≤ evidenceMaxBytes
  unretained : config.evidenceRetentionSecs = 0 → ring.evidence = []

variable {config : EvidenceConfig} {made : Nat} {ring : EvidenceRing}

theorem Accounted.shed {now : EvidenceRing} {dropped : List EvidenceRecord}
    (accounted : Accounted config made ring) (shed : EvidenceRing.Shed ring now dropped) :
    Accounted config made now := by
  have suffix : now.evidence <:+ ring.evidence := ⟨dropped, shed.evidence.symm⟩
  have held := accounted.held
  have evicted := accounted.evicted
  rw [shed.evidence, List.length_append] at held evicted
  refine ⟨shed.bytes, accounted.ordered.sublist suffix.sublist, ?_, ?_, ?_, ?_, ?_⟩
  · intro entry among
    rw [shed.sequence]
    exact accounted.latest entry (suffix.subset among)
  · rw [shed.sequence]
    exact accounted.small
  · omega
  · rw [shed.evicted, evicted]
    unfold saturatingAdd
    omega
  · intro entry among
    exact accounted.safe entry (suffix.subset among)

theorem Accounted.evicted_le (accounted : Accounted config made ring) :
    ring.evicted ≤ u64Max := by
  rw [accounted.evicted]
  exact Nat.min_le_right _ _

theorem Contained.shed {now : EvidenceRing} {dropped : List EvidenceRecord}
    (contained : Contained config made ring) (shed : EvidenceRing.Shed ring now dropped) :
    Contained config made now := by
  have events := contained.events
  have total := contained.total
  rw [contained.accounted.bytes, shed.evidence, EvidenceRing.estimateOf,
    totalSize_append] at total
  rw [shed.evidence, List.length_append] at events
  refine ⟨contained.accounted.shed shed, by omega, ?_, ?_⟩
  · rw [shed.bytes, EvidenceRing.estimateOf]
    omega
  · intro zero
    have nothing := contained.unretained zero
    rw [shed.evidence, List.append_eq_nil_iff] at nothing
    exact nothing.2

namespace EvidenceRing

theorem holdsSome_of_nil {now : EvidenceRing} (nothing : now.evidence = []) :
    now.holdsSome = false := by
  unfold holdsSome
  rw [nothing]
  rfl

theorem evidence_of_holdsSome {now : EvidenceRing}
    (stopped : now.holdsSome = false) : now.evidence = [] := by
  unfold holdsSome at stopped
  simpa using stopped

theorem holdsExpired_of_nil {retentionSecs instant : Nat}
    {now : EvidenceRing} (nothing : now.evidence = []) :
    holdsExpired retentionSecs instant now = false := by
  unfold holdsExpired
  rw [nothing]
  rfl

theorem holdsTooMuch_iff {now : EvidenceRing} :
    now.holdsTooMuch = false ↔
      now.evidence.length ≤ evidenceMaxEvents ∧
        now.bytes ≤ evidenceMaxBytes := by
  unfold holdsTooMuch
  rw [Bool.or_eq_false_iff, decide_eq_false_iff_not, decide_eq_false_iff_not,
    Nat.not_lt, Nat.not_lt]

/-- A prune comes to its end, and the oldest record that it leaves is young
enough. -/
theorem pruneEvidence_total (accounted : Accounted config made ring) (now : Nat) :
    ∃ pruned dropped, ring.pruneEvidence config now = some pruned ∧
      Shed ring pruned dropped ∧
      (config.evidenceRetentionSecs = 0 → pruned.evidence = []) ∧
      ∀ entry rest, pruned.evidence = entry :: rest →
        now - entry.observedAt < seconds config.evidenceRetentionSecs := by
  unfold pruneEvidence
  by_cases zero : config.evidenceRetentionSecs = 0
  · rw [if_pos zero]
    obtain ⟨pruned, dropped, ends, shed, stopped⟩ :=
      evictWhile_total (fun _ nothing _ => holdsSome_of_nil nothing)
        accounted.bytes accounted.evicted_le
    have nothing := evidence_of_holdsSome stopped
    refine ⟨pruned, dropped, ends, shed, fun _ => nothing, ?_⟩
    intro entry rest some
    rw [nothing] at some
    cases some
  · rw [if_neg zero]
    obtain ⟨pruned, dropped, ends, shed, stopped⟩ :=
      evictWhile_total (fun _ nothing _ => holdsExpired_of_nil nothing)
        accounted.bytes accounted.evicted_le
    refine ⟨pruned, dropped, ends, shed, fun none => absurd none zero, ?_⟩
    intro entry rest some
    unfold holdsExpired at stopped
    rw [some, List.head?_cons, Option.any_some, decide_eq_false_iff_not, Nat.not_le] at stopped
    exact stopped

theorem restart_total (contained : Contained config made ring) :
    ∃ restarted dropped, ring.restart = some restarted ∧
      Contained config made restarted ∧
      ring.evidence = dropped ++ restarted.evidence ∧
      restarted.sequence + 1 ≤ u64Max := by
  unfold restart
  by_cases last : ring.sequence = u64Max
  · rw [if_pos last]
    obtain ⟨emptied, dropped, ends, shed, stopped⟩ :=
      evictWhile_total (fun _ nothing _ => holdsSome_of_nil nothing)
        contained.accounted.bytes contained.accounted.evicted_le
    have nothing := evidence_of_holdsSome stopped
    have kept := contained.shed shed
    have accounted := kept.accounted
    have one : 0 + 1 ≤ u64Max := by decide
    refine ⟨{ emptied with sequence := 0 }, dropped, by rw [ends]; rfl, ?_,
      shed.evidence, one⟩
    refine ⟨⟨accounted.bytes, accounted.ordered, ?_, Nat.zero_le _,
      accounted.held, accounted.evicted, accounted.safe⟩, kept.events,
      kept.total, kept.unretained⟩
    intro entry among
    rw [nothing] at among
    cases among
  · rw [if_neg last]
    have small := contained.accounted.small
    exact ⟨ring, [], rfl, contained, rfl, by omega⟩

theorem recordOf_safe (now observedAtMs sequence : Nat) (draft : EvidenceDraft) :
    SafeRecord config (recordOf config now observedAtMs sequence draft) := by
  refine ⟨?_, ?_⟩
  · intro text nickname
    obtain ⟨value, _, given⟩ := Option.bind_eq_some_iff.mp nickname
    exact boundedEvidenceText_safe given
  · intro text excerpt
    obtain ⟨value, _, given⟩ := Option.bind_eq_some_iff.mp excerpt
    exact boundedEvidenceText_safe given

end EvidenceRing

/-- A record that is made and added is accounted for. -/
theorem Accounted.add (accounted : Accounted config made ring) {entry : EvidenceRecord}
    (next : entry.sequence = ring.sequence + 1) (small : ring.sequence + 1 ≤ u64Max)
    (safe : SafeRecord config entry) (fits : ring.bytes + entry.estimatedBytes ≤ u64Max) :
    Accounted config (made + 1)
      { evidence := ring.evidence ++ [entry]
        bytes := saturatingAdd ring.bytes entry.estimatedBytes
        sequence := ring.sequence + 1
        evicted := ring.evicted } := by
  have single : totalSize EvidenceRecord.estimatedBytes [entry] =
      entry.estimatedBytes := totalSize_cons entry []
  have held := accounted.held
  have evicted := accounted.evicted
  refine ⟨?_, ?_, ?_, small, ?_, ?_, ?_⟩
  · change saturatingAdd ring.bytes entry.estimatedBytes =
      EvidenceRing.estimateOf (ring.evidence ++ [entry])
    rw [saturatingAdd_of_le fits (Nat.le_refl _),
      EvidenceRing.estimateOf,
      totalSize_append, accounted.bytes, single]
    rfl
  · refine List.pairwise_append.mpr
      ⟨accounted.ordered, List.pairwise_singleton _ _, ?_⟩
    intro earlier among later isEntry
    have before := accounted.latest earlier among
    rw [List.mem_singleton.mp isEntry, next]
    omega
  · intro other among
    change other.sequence ≤ ring.sequence + 1
    rcases List.mem_append.mp among with old | isEntry
    · exact Nat.le_succ_of_le (accounted.latest other old)
    · rw [List.mem_singleton.mp isEntry, next]
  · rw [List.length_append, List.length_singleton]
    exact Nat.succ_le_succ held
  · change ring.evicted = min (made + 1 - (ring.evidence ++ [entry]).length) _
    rw [List.length_append, List.length_singleton, evicted, Nat.add_sub_add_right]
  · intro other among
    rcases List.mem_append.mp among with old | isEntry
    · exact accounted.safe other old
    · rw [List.mem_singleton.mp isEntry]
      exact safe

/-- A record that is made and too large is counted as dropped. -/
theorem Contained.refuse (contained : Contained config made ring)
    (small : ring.sequence + 1 ≤ u64Max) :
    Contained config (made + 1)
      { ring with
        sequence := ring.sequence + 1
        evicted := saturatingAdd ring.evicted 1 } := by
  have accounted := contained.accounted
  have held := accounted.held
  refine ⟨⟨accounted.bytes, accounted.ordered, ?_, small, ?_, ?_,
    accounted.safe⟩, contained.events, contained.total,
    contained.unretained⟩
  · intro entry among
    exact Nat.le_succ_of_le (accounted.latest entry among)
  · exact Nat.le_succ_of_le held
  · change saturatingAdd ring.evicted 1 =
      min (made + 1 - ring.evidence.length) u64Max
    rw [accounted.evicted]
    unfold saturatingAdd
    omega

namespace EvidenceRing

/-- A push comes to its end.  What it leaves is a part of what was there, and
the new record. -/
theorem pushEvidence_total (contained : Contained config made ring)
    (now observedAtMs : Nat) (draft : EvidenceDraft) :
    ∃ after, ring.pushEvidence config now observedAtMs draft = some after ∧
      Contained config (if config.evidenceRetentionSecs = 0 then made else made + 1) after ∧
      ∃ entry, entry.observedAt = now ∧
        after.evidence.Sublist (ring.evidence ++ [entry]) := by
  unfold pushEvidence
  by_cases zero : config.evidenceRetentionSecs = 0
  · rw [if_pos zero, if_pos zero]
    exact ⟨ring, rfl, contained, recordOf config now observedAtMs 0 draft,
      rfl, List.sublist_append_left _ _⟩
  · rw [if_neg zero, if_neg zero]
    obtain ⟨pruned, _, prunes, shed, _, _⟩ :=
      pruneEvidence_total contained.accounted now
    obtain ⟨restarted, gone, restarts, kept, parts, small⟩ :=
      restart_total (contained.shed shed)
    have fewer : restarted.evidence.Sublist ring.evidence := by
      rw [shed.evidence, parts]
      exact ((List.suffix_append _ _).trans (List.suffix_append _ _)).sublist
    have entryIs : (recordOf config now observedAtMs (restarted.sequence + 1)
        draft).observedAt = now := rfl
    have entrySequence : (recordOf config now observedAtMs
        (restarted.sequence + 1) draft).sequence = restarted.sequence + 1 := rfl
    have safe := @recordOf_safe config now observedAtMs (restarted.sequence + 1) draft
    rw [prunes, Option.bind_some, restarts, Option.bind_some]
    dsimp only
    generalize recordOf config now observedAtMs (restarted.sequence + 1)
      draft = entry at entryIs entrySequence safe ⊢
    by_cases large : evidenceMaxBytes < entry.estimatedBytes
    · rw [if_pos large]
      exact ⟨_, rfl, kept.refuse small, entry, entryIs,
        fewer.trans (List.sublist_append_left _ _)⟩
    · rw [if_neg large]
      have total := kept.total
      have limit : evidenceMaxBytes = 65536 := rfl
      have most : u64Max = 18446744073709551615 := rfl
      have added := kept.accounted.add entrySequence small safe (by omega)
      have stops : ∀ empty : EvidenceRing, empty.evidence = [] →
          empty.bytes = 0 → empty.holdsTooMuch = false := by
        intro empty nothing none
        rw [holdsTooMuch_iff, nothing, none]
        exact ⟨Nat.zero_le _, Nat.zero_le _⟩
      obtain ⟨after, dropped, ends, loss, stopped⟩ :=
        evictWhile_total stops added.bytes added.evicted_le
      obtain ⟨events, bytes⟩ := holdsTooMuch_iff.mp stopped
      refine ⟨after, ends, ⟨added.shed loss, events, bytes,
        fun none => absurd none zero⟩, entry, entryIs, ?_⟩
      have suffix : after.evidence <:+ restarted.evidence ++ [entry] :=
        ⟨dropped, loss.evidence.symm⟩
      exact suffix.sublist.trans (fewer.append (List.Sublist.refl [entry]))

end EvidenceRing

/-! ## Runs -/

inductive EvidenceOp where
  | push (now observedAtMs : Nat) (draft : EvidenceDraft)
  | prune (now : Nat)

/-- The reading of the clock at an operation. -/
def EvidenceOp.instant : EvidenceOp → Nat
  | .push now _ _ => now
  | .prune now => now

/-- The records that are made by an operation. -/
def EvidenceOp.makes (config : EvidenceConfig) : EvidenceOp → Nat
  | .push _ _ _ => if config.evidenceRetentionSecs = 0 then 0 else 1
  | .prune _ => 0

namespace EvidenceRing

def step (config : EvidenceConfig) (ring : EvidenceRing) :
    EvidenceOp → Option EvidenceRing
  | .push now observedAtMs draft => ring.pushEvidence config now observedAtMs draft
  | .prune now => ring.pruneEvidence config now

def run (config : EvidenceConfig) (ring : EvidenceRing) :
    List EvidenceOp → Option EvidenceRing
  | [] => some ring
  | op :: ops => (ring.step config op).bind fun next => next.run config ops

end EvidenceRing

/-- The number of records that some operations make. -/
def recordsMade (config : EvidenceConfig) (ops : List EvidenceOp) : Nat :=
  totalSize (EvidenceOp.makes config) ops

/-- Where the clock does not go back, the records are in its order. -/
def InOrder (ring : EvidenceRing) (instants : List Nat) : Prop :=
  (ring.evidence.map EvidenceRecord.observedAt ++ instants).Pairwise (· ≤ ·)

theorem Contained.step (contained : Contained config made ring) (op : EvidenceOp) :
    ∃ next, ring.step config op = some next ∧
      Contained config (made + op.makes config) next ∧
      ∀ instants, InOrder ring (op.instant :: instants) →
        InOrder next instants := by
  cases op with
  | push now observedAtMs draft =>
      obtain ⟨after, pushes, kept, entry, entryIs, fewer⟩ :=
        EvidenceRing.pushEvidence_total contained now observedAtMs draft
      refine ⟨after, pushes, ?_, ?_⟩
      · rw [EvidenceOp.makes]
        by_cases zero : config.evidenceRetentionSecs = 0
        · rw [if_pos zero] at kept ⊢
          exact kept
        · rw [if_neg zero] at kept ⊢
          exact kept
      · intro instants inOrder
        have most := (fewer.map EvidenceRecord.observedAt).append (List.Sublist.refl instants)
        rw [List.map_append, List.map_singleton, entryIs, List.append_assoc] at most
        exact inOrder.sublist most
  | prune now =>
      obtain ⟨pruned, dropped, prunes, shed, _, _⟩ :=
        EvidenceRing.pruneEvidence_total contained.accounted now
      refine ⟨pruned, prunes, contained.shed shed, ?_⟩
      intro instants inOrder
      have suffix : pruned.evidence <:+ ring.evidence :=
        ⟨dropped, shed.evidence.symm⟩
      exact inOrder.sublist
        ((suffix.sublist.map EvidenceRecord.observedAt).append
          (List.sublist_cons_self now instants))

theorem Contained.run (contained : Contained config made ring) (ops : List EvidenceOp) :
    ∃ final, ring.run config ops = some final ∧
      Contained config (made + recordsMade config ops) final ∧
      ∀ instants, InOrder ring (ops.map EvidenceOp.instant ++ instants) →
        InOrder final instants := by
  induction ops generalizing ring made with
  | nil => exact ⟨ring, rfl, contained, fun _ inOrder => inOrder⟩
  | cons op ops ih =>
      obtain ⟨next, steps, kept, ordered⟩ := contained.step op
      obtain ⟨final, runs, holds, inOrder⟩ := ih kept
      refine ⟨final, ?_, ?_, ?_⟩
      · rw [EvidenceRing.run, steps, Option.bind_some, runs]
      · rw [recordsMade, totalSize_cons, ← Nat.add_assoc]
        exact holds
      · intro instants start
        exact inOrder instants (ordered _ start)

theorem contained_empty (config : EvidenceConfig) :
    Contained config 0 EvidenceRing.empty := by
  refine ⟨⟨rfl, List.Pairwise.nil, ?_, Nat.zero_le _, Nat.zero_le _, rfl, ?_⟩,
    Nat.zero_le _, Nat.zero_le _, fun _ => rfl⟩
  · intro entry impossible
    cases impossible
  · intro entry impossible
    cases impossible

theorem InOrder.young {pruned : EvidenceRing} {now retention : Nat}
    (inOrder : InOrder pruned []) (oldest : ∀ entry rest, pruned.evidence = entry :: rest →
      now - entry.observedAt < retention) :
    ∀ entry ∈ pruned.evidence, now - entry.observedAt < retention := by
  intro entry among
  unfold InOrder at inOrder
  cases held : pruned.evidence with
  | nil =>
      rw [held] at among
      cases among
  | cons first rest =>
      have young := oldest first rest held
      rw [held, List.append_nil, List.map_cons, List.pairwise_cons] at inOrder
      rw [held] at among
      rcases List.mem_cons.mp among with isFirst | inRest
      · rw [isFirst]
        exact young
      · have later := inOrder.1 entry.observedAt
          (List.mem_map_of_mem inRest)
        omega

/-- The bounds, the totals and the texts of the evidence. -/
structure EvidenceKept (config : EvidenceConfig) (made : Nat)
    (ring : EvidenceRing) : Prop where
  events : ring.evidence.length ≤ evidenceMaxEvents
  exact : ring.bytes = EvidenceRing.estimateOf ring.evidence
  total : ring.bytes ≤ evidenceMaxBytes
  ordered : ring.evidence.Pairwise fun first second =>
    first.sequence < second.sequence
  held : ring.evidence.length ≤ made
  evicted : ring.evicted = min (made - ring.evidence.length) u64Max
  unretained : config.evidenceRetentionSecs = 0 → ring.evidence = []
  nicknames : ∀ entry ∈ ring.evidence, ∀ text,
    entry.sourceNickname = some text → SafeText config.maxNickBytes text
  excerpts : ∀ entry ∈ ring.evidence, ∀ text,
    entry.excerpt = some text → SafeText evidenceExcerptBytes text

/-- Every run keeps the evidence, and a prune at an instant that is not before
the others leaves nothing that is older than the retention. -/
theorem evidence_run (config : EvidenceConfig) (ops : List EvidenceOp) :
    ∃ final, EvidenceRing.empty.run config ops = some final ∧
      EvidenceKept config (recordsMade config ops) final ∧
      ∀ now, (ops.map EvidenceOp.instant ++ [now]).Pairwise (· ≤ ·) →
        ∃ pruned, final.pruneEvidence config now = some pruned ∧
          (config.evidenceRetentionSecs = 0 → pruned.evidence = []) ∧
          ∀ entry ∈ pruned.evidence,
            now - entry.observedAt < seconds config.evidenceRetentionSecs := by
  obtain ⟨final, runs, contained, inOrder⟩ := (contained_empty config).run ops
  rw [Nat.zero_add] at contained
  have accounted := contained.accounted
  refine ⟨final, runs, ⟨contained.events, accounted.bytes, contained.total,
    accounted.ordered, accounted.held, accounted.evicted,
    contained.unretained, fun entry among => (accounted.safe entry among).1,
    fun entry among => (accounted.safe entry among).2⟩, ?_⟩
  intro now increasing
  obtain ⟨pruned, dropped, prunes, shed, emptied, oldest⟩ :=
    EvidenceRing.pruneEvidence_total accounted now
  have finalOrder := inOrder [now] increasing
  have suffix : pruned.evidence <:+ final.evidence :=
    ⟨dropped, shed.evidence.symm⟩
  have prunedOrder : InOrder pruned [] := finalOrder.sublist
    ((suffix.sublist.map EvidenceRecord.observedAt).append (List.nil_sublist [now]))
  exact ⟨pruned, prunes, emptied, prunedOrder.young oldest⟩

/-! ### Rooms, clocks and the largest count -/

def sampleDraft (room : String) : EvidenceDraft :=
  { kind := .join, action := none, count := none, room := some room
    sourceIdentity := none, sourceNickname := none, targetIdentity := none
    excerpt := none }

/-- A retention of one hour. -/
def sampleConfig : EvidenceConfig :=
  { maxNickBytes := 32, evidenceRetentionSecs := 3600 }

theorem recordsMade_replicate (count now observedAtMs : Nat) (draft : EvidenceDraft) :
    recordsMade sampleConfig
      (List.replicate count (.push now observedAtMs draft)) = count := by
  induction count with
  | zero => rfl
  | succ count ih =>
      rw [List.replicate_succ, recordsMade, totalSize_cons]
      have one : EvidenceOp.makes sampleConfig (.push now observedAtMs draft) = 1 := rfl
      rw [recordsMade] at ih
      rw [one, ih, Nat.add_comm]

/-- The name of a room is stored as it is, a prune after the clock went back
leaves what is behind a younger record, and the count of what was dropped
stays at the largest number. -/
theorem evidence_asStored :
    (∃ final, EvidenceRing.empty.run sampleConfig
        [.push 0 0 (sampleDraft "a\u202eb")] = some final ∧
      ∃ entry ∈ final.evidence, ∃ text, entry.room = some text ∧
        ∃ char ∈ text.toList, isPresentationControl char = true) ∧
      (∃ final, EvidenceRing.empty.run sampleConfig
        [.push (seconds 7200) 0 (sampleDraft "a"),
          .push 0 0 (sampleDraft "b"), .prune (seconds 7200)] = some final ∧
        ∃ entry ∈ final.evidence, seconds 3600 ≤ seconds 7200 - entry.observedAt) ∧
      ∃ ops final, EvidenceRing.empty.run sampleConfig ops = some final ∧
        final.evicted ≠ recordsMade sampleConfig ops -
          final.evidence.length := by
  refine ⟨⟨_, rfl, _, List.mem_cons_self, _, rfl, Char.ofNat 0x202e, ?_, ?_⟩,
    ⟨_, rfl, _, List.mem_cons_of_mem _ List.mem_cons_self, ?_⟩, ?_⟩
  · decide
  · decide
  · decide
  · obtain ⟨final, runs, contained, _⟩ :=
      (contained_empty sampleConfig).run
        (List.replicate (u64Max + 200) (.push 0 0 (sampleDraft "a")))
    refine ⟨_, final, runs, ?_⟩
    have events := contained.events
    have limit : evidenceMaxEvents = 128 := rfl
    rw [contained.accounted.evicted, recordsMade_replicate]
    omega

end Ratspeak.Hub
