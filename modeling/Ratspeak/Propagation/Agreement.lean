import Mathlib.Data.List.Forall2
import Ratspeak.Propagation.AutoSelect

/-!
# The two choices agree

Both choices take the least of the eligible nodes in one order of ranks, so
neither the order of the registry nor the time at which a current node was
last seen matters, and nodes that were not chosen may go.  They differ in one
point only: a node that failed too often just as long ago as failures count
is taken back by one of them and not by the other.
-/

namespace Ratspeak.Propagation

open Library

variable {floats : Floats}

/-! ## The order of ranks -/

private theorem liveCompare_eq : liveCompare =
    compareLex (fun a b => compare b.1 a.1)
      (compareLex (compareOn fun candidate => candidate.2.1)
        (compareLex (compareOn fun candidate => candidate.2.2.1)
          (compareOn fun candidate => candidate.2.2.2.val))) := by
  funext a b
  rfl

instance : Std.TransCmp liveCompare := by
  rw [liveCompare_eq]
  have preferred : Std.TransCmp fun a b : Candidate =>
      compare b.1 a.1 :=
    inferInstanceAs (Std.TransCmp fun a b : Candidate =>
      compareOn (fun candidate : Candidate => candidate.1) b a)
  infer_instance

theorem eq_of_liveCompare {first second : Candidate}
    (equal : liveCompare first second = .eq) : first = second := by
  rw [liveCompare_eq, compareLex_eq_eq, compareLex_eq_eq, compareLex_eq_eq] at equal
  obtain ⟨preferred, priority, hops, hash⟩ := equal
  have preferred := Std.LawfulEqOrd.eq_of_compare preferred
  have priority := Std.LawfulEqOrd.eq_of_compare priority
  have hops := Std.LawfulEqOrd.eq_of_compare hops
  have hash := Std.LawfulEqOrd.eq_of_compare hash
  exact Prod.ext preferred.symm (Prod.ext priority (Prod.ext hops (Subtype.ext hash)))

instance : Std.LawfulEqCmp liveCompare where
  compare_self := Std.ReflCmp.compare_self
  eq_of_compare := eq_of_liveCompare

/-- The hash of a candidate. -/
def Candidate.hash (candidate : Candidate) : Hash :=
  candidate.2.2.2

theorem names_hash : Names liveCompare Candidate.hash := by
  intro first second equal
  rw [eq_of_liveCompare equal]

/-! ## The eligible nodes -/

/-- An eligible node with its rank. -/
def eligible (state : AppState floats) (entry : String × Value floats.F64) : Option Candidate :=
  (autoCandidate state entry).map fun candidate =>
    ((readSettings state).2 && candidate.1, candidate.2)

/-- How long ago the last failure was of a node that failed too often. -/
def failedFor (state : AppState floats) (hash : Hash) : Option Nat :=
  (state.autoFailureCounts hash).bind fun failures =>
    if syncFailureThreshold ≤ failures.1 then
      some (state.instant - failures.2)
    else none

/-- The candidates of the choice among all nodes, with their ranks. -/
def autoRanked (state : AppState floats)
    (entry : String × Value floats.F64) : Option Candidate :=
  (eligible state entry).filter fun candidate =>
    (failedFor state candidate.hash).all fun time =>
      decide (syncFailureWindow ≤ time)

/-- Those of the choice among the nodes to which a path is known. -/
def liveRanked (livePaths : List Hash) (state : AppState floats)
    (entry : String × Value floats.F64) : Option Candidate :=
  ((eligible state entry).filter fun candidate =>
    (failedFor state candidate.hash).all fun time =>
      decide (syncFailureWindow < time)).filter fun candidate =>
        livePaths.contains candidate.hash

/-- The registry with the nodes of a set only. -/
def restrict (livePaths : List Hash) (state : AppState floats) :
    AppState floats :=
  { state with
    discoveredPropagationNodes :=
      state.discoveredPropagationNodes.filter fun entry =>
        (hashOf entry.1).any livePaths.contains }

theorem hash_autoCandidate {state : AppState floats}
    {entry : String × Value floats.F64} {candidate : Candidate}
    (accepted : autoCandidate state entry = some candidate) :
    hashOf entry.1 = some candidate.hash := by
  obtain ⟨hash, isHash, accepted⟩ := Option.bind_eq_some_iff.mp accepted
  dsimp only at accepted
  split at accepted
  next =>
    cases accepted
  split at accepted
  next =>
    cases accepted
  next =>
    cases accepted
    exact isHash

theorem hash_eligible {state : AppState floats}
    {entry : String × Value floats.F64} {candidate : Candidate}
    (accepted : eligible state entry = some candidate) :
    hashOf entry.1 = some candidate.hash := by
  obtain ⟨inner, isInner, rfl⟩ := Option.map_eq_some_iff.mp accepted
  have same := hash_autoCandidate isInner
  exact same

/-- Hops that are missing count as the most in both choices. -/
private theorem hops_eq (hops : Option UInt64) :
    UInt8.ofNat (min (hops.getD 255).toNat 255) =
      (hops.map fun hops => UInt8.ofNat (min hops.toNat 255)).getD 255 := by
  cases hops with
  | none => rfl
  | some hops => rfl

private theorem filter_map_ite {Item : Type} {first second : Prop}
    [Decidable first] [Decidable second] (item : Item)
    (convert : Item → Item) (keep : Item → Bool) :
    ((if first then none else if second then none else some item).map
        convert).filter keep =
      if keep (convert item) then
        if first then none else if second then none else some (convert item)
      else none := by
  by_cases refused : first
  · rw [if_pos refused, if_pos refused, ite_self]
    rfl
  · by_cases refusedToo : second
    · rw [if_neg refused, if_pos refusedToo, if_neg refused,
        if_pos refusedToo, ite_self]
      rfl
    · rw [if_neg refused, if_neg refusedToo, if_neg refused,
        if_neg refusedToo]
      rfl

/-- The second choice asks the same of a node, and that a path is known. -/
theorem liveCandidate_eq (state : AppState floats) (livePaths : List Hash)
    (entry : String × Value floats.F64) :
    liveCandidate state livePaths entry =
      (eligible state entry).filter fun candidate =>
        livePaths.contains candidate.hash := by
  obtain ⟨hashHex, value⟩ := entry
  unfold liveCandidate eligible autoCandidate
  dsimp only
  cases hashOf hashHex with
  | none => rfl
  | some hash =>
      simp only [Option.bind_eq_bind, Option.bind_some, hops_eq]
      rw [filter_map_ite]
      by_cases known : livePaths.contains hash = true
      · rw [known, Bool.not_true, if_neg Bool.false_ne_true]
        exact (if_pos known).symm
      · have unknown := known
        rw [Bool.not_eq_true] at unknown
        rw [unknown, Bool.not_false, if_pos rfl]
        exact (if_neg known).symm

/-- The choice of the least of the candidates. -/
def chosen (ranked : String × Value floats.F64 → Option Candidate)
    (nodes : List (String × Value floats.F64)) : Option Hash :=
  selectedName liveCompare Candidate.hash (nodes.filterMap ranked)

theorem autoSelectNode_eq (state : AppState floats) :
    autoSelectNode state =
      chosen (autoRanked state) state.discoveredPropagationNodes := by
  have retained : ∀ candidate : Candidate,
      autoRetains state candidate.hash =
        (failedFor state candidate.hash).all fun time =>
          decide (syncFailureWindow ≤ time) := by
    intro candidate
    unfold autoRetains failedFor Candidate.hash
    cases state.autoFailureCounts candidate.2.2.2 with
    | none => rfl
    | some failures =>
        dsimp only [Option.bind_some]
        by_cases many : syncFailureThreshold ≤ failures.1
        · rw [if_pos many, if_pos many]
          rfl
        · rw [if_neg many, if_neg many]
          rfl
  have unranked : autoSelectNode state =
      selectedName (autoCompare (readSettings state).2) Candidate.hash
        ((state.discoveredPropagationNodes.filterMap
          (autoCandidate state)).filter fun candidate =>
            (failedFor state candidate.hash).all fun time =>
              decide (syncFailureWindow ≤ time)) :=
    congrArg (selectedName (autoCompare (readSettings state).2)
      Candidate.hash) (List.filter_congr fun candidate _ =>
        retained candidate)
  have ranked : state.discoveredPropagationNodes.filterMap
        (autoRanked state) =
      ((state.discoveredPropagationNodes.filterMap
          (autoCandidate state)).filter fun candidate =>
            (failedFor state candidate.hash).all fun time =>
              decide (syncFailureWindow ≤ time)).map fun candidate =>
                ((readSettings state).2 && candidate.1, candidate.2) := by
    rw [List.filter_filterMap, List.map_filterMap]
    congr 1
    funext entry
    unfold autoRanked eligible
    cases autoCandidate state entry with
    | none => rfl
    | some candidate =>
        rw [Option.map_some, Option.filter_some, Option.filter_some, apply_ite (Option.map _)]
        rfl
  rw [unranked, chosen, ranked, selectedName_map]
  rfl

theorem autoSelectNodeWithLivePaths_eq (state : AppState floats) (livePaths : List Hash) :
    autoSelectNodeWithLivePaths state livePaths =
      chosen (liveRanked livePaths state)
        state.discoveredPropagationNodes := by
  have retained : ∀ candidate : Candidate,
      liveRetains state candidate.hash =
        (failedFor state candidate.hash).all fun time =>
          decide (syncFailureWindow < time) := by
    intro candidate
    unfold liveRetains failedFor Candidate.hash
    cases state.autoFailureCounts candidate.2.2.2 with
    | none => rfl
    | some failures =>
        obtain ⟨count, first⟩ := failures
        dsimp only [Option.bind_some, Option.any_some]
        by_cases many : syncFailureThreshold ≤ count
        · rw [if_pos many, decide_eq_true many, Bool.true_and,
            Option.all_some, ← decide_not]
          simp only [Nat.not_le]
        · rw [if_neg many, decide_eq_false many, Bool.false_and]
          rfl
  have known : autoSelectNodeWithLivePaths state livePaths =
      selectedName liveCompare Candidate.hash
        ((state.discoveredPropagationNodes.filterMap
          (liveCandidate state livePaths)).filter fun candidate =>
            (failedFor state candidate.hash).all fun time =>
              decide (syncFailureWindow < time)) :=
    congrArg (selectedName liveCompare Candidate.hash)
      (List.filter_congr fun candidate _ => retained candidate)
  rw [known, chosen, List.filter_filterMap]
  congr 1
  refine List.filterMap_congr fun entry _ => ?_
  rw [liveCandidate_eq, liveRanked, Option.filter_filter, Option.filter_filter]
  congr 1
  funext candidate
  exact Bool.and_comm _ _

/-! ## The rules of a choice -/

/-- Two entries of a node that are the same up to the time at which it was
last seen, at a time of which both are current. -/
def DiffersInTime (now : floats.F64) (first second : String × Value floats.F64) : Prop :=
  first.1 = second.1 ∧
    (first.2 = second.2 ∨
      (∀ field, field ≠ "last_seen" → first.2.get field = second.2.get field) ∧
      lastSeenIsCurrent first.2 now = true ∧
      lastSeenIsCurrent second.2 now = true)

/-- The state with another registry. -/
def withNodes (state : AppState floats)
    (nodes : List (String × Value floats.F64)) : AppState floats :=
  { state with discoveredPropagationNodes := nodes }

/-- The choice is the least of the candidates.  It does not depend on the
order of the registry, nor on when current nodes were last seen, and nodes
that were not chosen may be removed. -/
structure ChoosesLeast (choose : AppState floats → Option Hash)
    (candidates : AppState floats → List Candidate) : Prop where
  least : ∀ state hash, choose state = some hash ↔
    ∃ candidate, ComesFirst liveCompare (candidates state) candidate ∧ candidate.hash = hash
  order : ∀ state nodes, nodes.Perm state.discoveredPropagationNodes →
    choose (withNodes state nodes) = choose state
  time : ∀ state nodes,
    List.Forall₂ (DiffersInTime state.now) state.discoveredPropagationNodes nodes →
    choose (withNodes state nodes) = choose state
  removal : ∀ state (keep : String × Value floats.F64 → Bool),
    (∀ entry ∈ state.discoveredPropagationNodes, ∀ hash,
      hashOf entry.1 = some hash → choose state = some hash → keep entry = true) →
    choose (withNodes state (state.discoveredPropagationNodes.filter keep)) = choose state

theorem eligible_of_differsInTime {state : AppState floats}
    {first second : String × Value floats.F64}
    (differs : DiffersInTime state.now first second) :
    eligible state first = eligible state second := by
  obtain ⟨firstKey, firstValue⟩ := first
  obtain ⟨secondKey, secondValue⟩ := second
  obtain ⟨rfl, rfl | ⟨fields, firstCurrent, secondCurrent⟩⟩ := differs
  · rfl
  dsimp only at fields firstCurrent secondCurrent
  unfold eligible autoCandidate registryEntryIsStatic
    staticEntryIsSelectable nodeStateIsUsable relayMetadataIsUsable
    relayPathStateAllowsSelection
  simp only [firstCurrent, secondCurrent, fields "node_state" (by decide),
    fields "stamp_cost" (by decide), fields "backoff_until" (by decide),
    fields "path_status" (by decide), fields "static" (by decide),
    fields "static_status" (by decide), fields "hops" (by decide)]

/-- Choosing the least candidate follows the rules, whatever makes an entry
a candidate. -/
theorem choosesLeast_of {choose : AppState floats → Option Hash}
    (ranked : AppState floats → String × Value floats.F64 → Option Candidate)
    (chooses : ∀ state, choose state = chosen (ranked state) state.discoveredPropagationNodes)
    (unaffected : ∀ state nodes, ranked (withNodes state nodes) = ranked state)
    (named : ∀ state entry candidate,
      ranked state entry = some candidate → hashOf entry.1 = some candidate.hash)
    (timeless : ∀ state first second,
      DiffersInTime state.now first second → ranked state first = ranked state second) :
    ChoosesLeast choose fun state =>
      state.discoveredPropagationNodes.filterMap (ranked state) := by
  refine ⟨?_, ?_, ?_, ?_⟩
  · intro state hash
    rw [chooses]
    exact selectedName_eq_some_iff names_hash
  · intro state nodes same
    rw [chooses, chooses, unaffected]
    exact selectedName_congr names_hash fun candidate =>
      (same.filterMap (ranked state)).mem_iff
  · intro state nodes differ
    rw [chooses, chooses, unaffected]
    have equal : nodes.filterMap (ranked state) =
        state.discoveredPropagationNodes.filterMap (ranked state) := by
      generalize state.discoveredPropagationNodes = registry at differ
      induction differ with
      | nil => rfl
      | cons differs _ ih =>
          rw [List.filterMap_cons, List.filterMap_cons, timeless state _ _ differs, ih]
    exact congrArg (selectedName liveCompare Candidate.hash) equal
  · intro state keep keeps
    rw [chooses, chooses, unaffected]
    rw [chooses] at keeps
    refine selectedName_of_subset names_hash ?_ ?_
    · intro candidate member
      obtain ⟨entry, isEntry, isRanked⟩ := List.mem_filterMap.mp member
      exact List.mem_filterMap.mpr ⟨entry, (List.mem_filter.mp isEntry).1, isRanked⟩
    · intro candidate member selected
      obtain ⟨entry, isEntry, isRanked⟩ := List.mem_filterMap.mp member
      exact List.mem_filterMap.mpr
        ⟨entry, List.mem_filter.mpr ⟨isEntry, keeps entry isEntry
          candidate.hash (named state entry candidate isRanked) selected⟩,
          isRanked⟩

theorem autoRanked_named (state : AppState floats)
    (entry : String × Value floats.F64) (candidate : Candidate)
    (ranked : autoRanked state entry = some candidate) :
    hashOf entry.1 = some candidate.hash :=
  hash_eligible (Option.eq_some_of_filter_eq_some ranked)

theorem liveRanked_named (livePaths : List Hash) (state : AppState floats)
    (entry : String × Value floats.F64) (candidate : Candidate)
    (ranked : liveRanked livePaths state entry = some candidate) :
    hashOf entry.1 = some candidate.hash :=
  hash_eligible (Option.eq_some_of_filter_eq_some (Option.eq_some_of_filter_eq_some ranked))

theorem choosesLeast_autoSelectNode :
    ChoosesLeast (@autoSelectNode floats) fun state =>
      state.discoveredPropagationNodes.filterMap (autoRanked state) :=
  choosesLeast_of autoRanked autoSelectNode_eq (fun _ _ => rfl)
    autoRanked_named fun state first second differs => by
      rw [autoRanked, autoRanked, eligible_of_differsInTime differs]

theorem choosesLeast_autoSelectNodeWithLivePaths (livePaths : List Hash) :
    ChoosesLeast
      (fun state : AppState floats =>
        autoSelectNodeWithLivePaths state livePaths)
      fun state =>
        state.discoveredPropagationNodes.filterMap (liveRanked livePaths state) :=
  choosesLeast_of (liveRanked livePaths)
    (fun state => autoSelectNodeWithLivePaths_eq state livePaths)
    (fun _ _ => rfl) (liveRanked_named livePaths)
    fun state first second differs => by
      rw [liveRanked, liveRanked, eligible_of_differsInTime differs]

/-! ## Where the choices differ -/

/-- The eligible nodes to which a path is known, with their ranks. -/
def eligibleNodes (livePaths : List Hash) (state : AppState floats) :
    List Candidate :=
  (restrict livePaths state).discoveredPropagationNodes.filterMap (eligible state)

/-- The nodes that one choice has for a candidate and the other has not are
those that failed as long ago as failures count. -/
theorem mem_autoRanked_iff {livePaths : List Hash}
    {state : AppState floats} {candidate : Candidate} :
    candidate ∈ (restrict livePaths state).discoveredPropagationNodes.filterMap
        (autoRanked (restrict livePaths state)) ↔
      candidate ∈ eligibleNodes livePaths state ∧
        ∀ time, failedFor state candidate.hash = some time →
          syncFailureWindow ≤ time := by
  have ranked : ∀ entry,
      autoRanked (restrict livePaths state) entry = some candidate ↔
        eligible state entry = some candidate ∧
          ∀ time, failedFor state candidate.hash = some time →
            syncFailureWindow ≤ time := by
    intro entry
    unfold autoRanked
    rw [Option.filter_eq_some_iff]
    refine and_congr Iff.rfl ?_
    rw [Option.all_eq_true]
    simp only [decide_eq_true_eq]
    rfl
  unfold eligibleNodes
  rw [List.mem_filterMap, List.mem_filterMap]
  simp only [ranked]
  constructor
  · rintro ⟨entry, member, isEligible, late⟩
    exact ⟨⟨entry, member, isEligible⟩, late⟩
  · rintro ⟨⟨entry, member, isEligible⟩, late⟩
    exact ⟨entry, member, isEligible, late⟩

theorem mem_liveRanked_iff {livePaths : List Hash}
    {state : AppState floats} {candidate : Candidate} :
    candidate ∈ state.discoveredPropagationNodes.filterMap
        (liveRanked livePaths state) ↔
      candidate ∈ eligibleNodes livePaths state ∧
        ∀ time, failedFor state candidate.hash = some time →
          syncFailureWindow < time := by
  have ranked : ∀ entry,
      liveRanked livePaths state entry = some candidate ↔
        (eligible state entry = some candidate ∧
          ∀ time, failedFor state candidate.hash = some time → syncFailureWindow < time) ∧
          livePaths.contains candidate.hash = true := by
    intro entry
    unfold liveRanked
    rw [Option.filter_eq_some_iff, Option.filter_eq_some_iff, Option.all_eq_true]
    simp only [decide_eq_true_eq]
  unfold eligibleNodes restrict
  rw [List.mem_filterMap, List.mem_filterMap]
  simp only [ranked, List.mem_filter]
  constructor
  · rintro ⟨entry, member, ⟨isEligible, late⟩, known⟩
    refine ⟨⟨entry, ⟨member, ?_⟩, isEligible⟩, late⟩
    rw [hash_eligible isEligible]
    exact known
  · rintro ⟨⟨entry, ⟨member, known⟩, isEligible⟩, late⟩
    rw [hash_eligible isEligible] at known
    exact ⟨entry, member, ⟨isEligible, late⟩, known⟩

/-- Every node that failed just as long ago as failures count comes behind
one that both choices accept. -/
def Outranked (livePaths : List Hash) (state : AppState floats) : Prop :=
  ∀ candidate ∈ eligibleNodes livePaths state,
    failedFor state candidate.hash = some syncFailureWindow →
      ∃ other ∈ eligibleNodes livePaths state,
        (∀ time, failedFor state other.hash = some time → syncFailureWindow < time) ∧
        liveCompare other candidate = .lt

theorem agree_iff (livePaths : List Hash) (state : AppState floats) :
    autoSelectNodeWithLivePaths state livePaths =
        autoSelectNode (restrict livePaths state) ↔
      Outranked livePaths state := by
  rw [autoSelectNodeWithLivePaths_eq, autoSelectNode_eq]
  unfold chosen
  rw [selectedName_eq_iff names_hash]
  · constructor
    · intro behind candidate isEligible atWindow
      have accepted := mem_autoRanked_iff.mpr
        ⟨isEligible, fun time failed => by
          rw [atWindow] at failed
          exact Nat.le_of_eq (Option.some.inj failed)⟩
      obtain ⟨other, isOther, earlier⟩ := behind candidate accepted
        fun member => by
          exact Nat.lt_irrefl _ ((mem_liveRanked_iff.mp member).2 _ atWindow)
      have late := mem_liveRanked_iff.mp isOther
      exact ⟨other, late.1, late.2, earlier⟩
    · intro outranked candidate accepted out
      obtain ⟨isEligible, late⟩ := mem_autoRanked_iff.mp accepted
      have atWindow : failedFor state candidate.hash =
          some syncFailureWindow := by
        by_contra other
        refine out (mem_liveRanked_iff.mpr ⟨isEligible, ?_⟩)
        intro time failed
        refine Nat.lt_of_le_of_ne (late time failed) ?_
        intro same
        exact other (same ▸ failed)
      obtain ⟨other, isOther, lateOther, earlier⟩ :=
        outranked candidate isEligible atWindow
      exact ⟨other, mem_liveRanked_iff.mpr ⟨isOther, lateOther⟩, earlier⟩
  · intro candidate member
    obtain ⟨isEligible, late⟩ := mem_liveRanked_iff.mp member
    exact mem_autoRanked_iff.mpr
      ⟨isEligible, fun time failed => Nat.le_of_lt (late time failed)⟩
  · intro candidate accepted other member same
    obtain ⟨_, late⟩ := mem_liveRanked_iff.mp member
    refine mem_liveRanked_iff.mpr ⟨(mem_autoRanked_iff.mp accepted).1, ?_⟩
    rw [same]
    exact late

/-- Both choices take the least candidate of one total order.  The choice
among the nodes to which a path is known is the choice in the registry of
these nodes exactly if each node that failed just as long ago as failures
count comes behind one that both accept. -/
theorem autoSelectNode_agrees (floats : Floats) :
    (Std.TransCmp liveCompare ∧ Std.LawfulEqCmp liveCompare) ∧
    (ChoosesLeast (@autoSelectNode floats) fun state =>
      state.discoveredPropagationNodes.filterMap (autoRanked state)) ∧
    (∀ livePaths, ChoosesLeast
      (fun state : AppState floats =>
        autoSelectNodeWithLivePaths state livePaths)
      fun state => state.discoveredPropagationNodes.filterMap
        (liveRanked livePaths state)) ∧
    ∀ livePaths (state : AppState floats),
      autoSelectNodeWithLivePaths state livePaths =
          autoSelectNode (restrict livePaths state) ↔
        Outranked livePaths state :=
  ⟨⟨inferInstance, inferInstance⟩, choosesLeast_autoSelectNode,
    choosesLeast_autoSelectNodeWithLivePaths, agree_iff⟩

/-! ## A node at the window -/

/-- Whole seconds. -/
def wholeSeconds : Floats where
  F64 := Int
  less first second := decide (first < second)
  sub first second := first - second
  ofInt number := number

/-- One node, enabled and just seen, whose third failure was half an hour
ago. -/
def halfAnHourAgo : AppState wholeSeconds where
  activeIdentity := none
  staticNodes := []
  discoveredPropagationNodes :=
    [("aaaaaaaaaaaaaaaaaaaaaaaaaaaaaaaa", .object
      [("node_state", .string "enabled"), ("stamp_cost", .posInt 8),
        ("last_seen", .posInt 1000), ("hops", .posInt 1)])]
  autoFailureCounts hash :=
    if hash = Bytes.replicate 16 0xAA then some (3, 0) else none
  now := (1060 : Int)
  instant := syncFailureWindow

/-- One choice takes the node back, the other one does not. -/
theorem autoSelectNode_halfAnHourAgo :
    autoSelectNode
        (restrict [Bytes.replicate 16 0xAA] halfAnHourAgo) =
      some (Bytes.replicate 16 0xAA) ∧
    autoSelectNodeWithLivePaths halfAnHourAgo
      [Bytes.replicate 16 0xAA] = none := by
  have ranked : (restrict [Bytes.replicate 16 0xAA]
      halfAnHourAgo).discoveredPropagationNodes.filterMap
        (autoRanked (restrict [Bytes.replicate 16 0xAA] halfAnHourAgo)) =
      [(false, 1000, 1, Bytes.replicate 16 0xAA)] := by
    decide +kernel
  have nothing : (halfAnHourAgo.discoveredPropagationNodes.filterMap
      (liveRanked [Bytes.replicate 16 0xAA] halfAnHourAgo)).isEmpty =
        true := by
    decide +kernel
  rw [autoSelectNode_eq, autoSelectNodeWithLivePaths_eq, chosen, chosen,
    ranked, List.isEmpty_iff.mp nothing]
  constructor
  · rw [selectedName, sortedBy, List.mergeSort_singleton]
    rfl
  · rw [selectedName, sortedBy, List.mergeSort_nil]
    rfl

end Ratspeak.Propagation
