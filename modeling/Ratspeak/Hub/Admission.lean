import Ratspeak.Hub.State
import Ratspeak.Library.Ledger

/-!
# The gate for inbound resources

The gate is shared by the hub and by the task that runs its links, which
consults it for every transfer that a peer offers.  Each call holds a lock, so
that what happens to the gate is some sequence of calls, in any order and at
any times.  Whatever the order, a link holds a bounded number of slots, and
what it is given back for delivered payloads was announced by it before, each
announcement once.
-/

namespace Ratspeak

open Library

/-! ## Calls -/

/-- A call of the gate, with the time it reads. -/
inductive AdmissionOp where
  | expect (linkId : LinkId) (expectation : InboundExpectation)
  | offer (linkId : LinkId) (adv : ResourceAdvertisement) (now : Instant)
  | takeMatching (linkId : LinkId) (size : Nat) (digest : Bytes 32)
      (now : Instant)
  | retire (linkId : LinkId) (resourceHash : Bytes 32)
  | forgetLink (linkId : LinkId)
  | sweep (now : Instant)
  | noteRejected

/-- The call neither takes an announcement nor hands one out. -/
def AdmissionOp.Quiet : AdmissionOp → Prop
  | .expect _ _ => False
  | .takeMatching _ _ _ _ => False
  | _ => True

namespace AdmissionState

def perform (state : AdmissionState) : AdmissionOp → AdmissionState
  | .expect linkId expectation => (state.expect linkId expectation).1
  | .offer linkId adv now => (state.admitAdvertised linkId adv now).1
  | .takeMatching linkId size digest now =>
      (state.takeMatching linkId size digest now).1
  | .retire linkId resourceHash => state.retire linkId resourceHash
  | .forgetLink linkId => state.forgetLink linkId
  | .sweep now => state.prune now
  | .noteRejected => state.noteRejected

/-- The expectations of a link. -/
def pending (linkId : LinkId) (state : AdmissionState) :
    List InboundExpectation :=
  (state.expectations.lookup linkId).getD []

/-- The transfers of a link that are under way. -/
def running (linkId : LinkId) (state : AdmissionState) :
    FiniteMap (Bytes 32) Instant :=
  (state.live.lookup linkId).getD ∅

/-- What a call lets a link announce. -/
def announced (linkId : LinkId) (state : AdmissionState) :
    AdmissionOp → Multiset InboundExpectation
  | .expect source expectation =>
      if source = linkId ∧ (state.expect source expectation).2 = true then
        {expectation}
      else 0
  | _ => 0

/-- What a call hands out for a payload of a link. -/
def claimed (linkId : LinkId) (state : AdmissionState) :
    AdmissionOp → Multiset InboundExpectation
  | .takeMatching source size digest now =>
      if source = linkId then
        ((state.takeMatching source size digest now).2.toList : Multiset InboundExpectation)
      else 0
  | _ => 0

theorem silent_of_quiet {op : AdmissionOp} (quiet : op.Quiet)
    (linkId : LinkId) (state : AdmissionState) :
    state.claimed linkId op = 0 ∧ state.announced linkId op = 0 := by
  cases op with
  | expect source expectation => exact quiet.elim
  | offer source adv now => exact ⟨rfl, rfl⟩
  | takeMatching source size digest now => exact quiet.elim
  | retire source resourceHash => exact ⟨rfl, rfl⟩
  | forgetLink source => exact ⟨rfl, rfl⟩
  | sweep now => exact ⟨rfl, rfl⟩
  | noteRejected => exact ⟨rfl, rfl⟩

theorem announced_expect_le (state : AdmissionState)
    (linkId source : LinkId) (expectation : InboundExpectation) :
    state.announced linkId (.expect source expectation) ≤
      if source = linkId then {expectation} else 0 := by
  rw [announced]
  by_cases same : source = linkId
  · rw [if_pos same]
    split
    · exact le_rfl
    · exact Multiset.zero_le _
  · rw [if_neg fun both => same both.1]
    exact Multiset.zero_le _

/-! ## What a call does to a link -/

@[simp]
theorem pending_prune (state : AdmissionState) (now : Instant) (linkId : LinkId) :
    (state.prune now).pending linkId =
      (state.pending linkId).filter fun expectation =>
        now - expectation.createdAt ≤ resourceExpectationTtl := by
  simp only [pending, prune, FiniteMap.lookup_retain, FiniteMap.lookup_mapValues]
  cases state.expectations.lookup linkId with
  | none => rfl
  | some expectations =>
      simp only [Option.map_some, Option.getD_some]
      generalize expectations.filter _ = kept
      cases kept with
      | nil => rfl
      | cons first rest => rfl

theorem running_prune (state : AdmissionState) (now : Instant) (linkId : LinkId) :
    (state.prune now).running linkId =
      FiniteMap.retain
        (fun _ started => now - started ≤ inboundResourceTimeout)
        (state.running linkId) := by
  simp only [running, prune, FiniteMap.lookup_retain, FiniteMap.lookup_mapValues]
  cases state.live.lookup linkId with
  | none => rfl
  | some transfers =>
      simp only [Option.map_some, Option.getD_some]
      generalize FiniteMap.retain _ transfers = kept
      obtain ⟨entries, nodupKeys⟩ := kept
      cases entries with
      | nil => rfl
      | cons first rest => rfl

theorem size_running_prune (state : AdmissionState) (now : Instant) (linkId : LinkId) :
    ((state.prune now).running linkId).keys.length ≤
      (state.running linkId).keys.length := by
  rw [running_prune]
  exact (List.filter_sublist.map Sigma.fst).length_le

theorem pending_prune_le (state : AdmissionState) (now : Instant) (linkId : LinkId) :
    ((state.prune now).pending linkId : Multiset InboundExpectation) ≤
      (state.pending linkId : Multiset InboundExpectation) := by
  rw [pending_prune]
  exact Multiset.coe_le.mpr List.filter_sublist.subperm

theorem length_pending_prune (state : AdmissionState) (now : Instant) (linkId : LinkId) :
    ((state.prune now).pending linkId).length ≤
      (state.pending linkId).length := by
  rw [pending_prune]
  exact List.length_filter_le _ _

/-- An announcement takes the place of the one with its id. -/
private theorem replaceF_le (added : InboundExpectation)
    (expectations : List InboundExpectation) :
    (expectations.replaceF fun known =>
        if known.id = added.id then some added else none :
      Multiset InboundExpectation) ≤
      expectations + {added} := by
  rcases List.exists_or_eq_self_of_replaceF (fun known =>
    if known.id = added.id then some added else none) expectations with
    same | ⟨known, other, early, late, -, replaced, isList, isReplaced⟩
  · rw [same]
    exact Multiset.le_add_right _ _
  · have isAdded : other = added := by
      split at replaced
      · exact (Option.some.inj replaced).symm
      · cases replaced
    rw [isReplaced, isList, isAdded]
    have moved : (early ++ added :: late).Perm
        (early ++ late ++ [added]) :=
      List.perm_middle.trans (List.perm_append_singleton _ _).symm
    have dropped : (early ++ late).Sublist (early ++ known :: late) :=
      (List.Sublist.refl early).append (List.sublist_cons_self known late)
    exact Multiset.coe_le.mpr (moved.subperm.trans (dropped.append (.refl [added])).subperm)

/-- An accepted announcement is held from then on, and a refused one is
not. -/
theorem expect_cases (state : AdmissionState) (linkId : LinkId)
    (expectation : InboundExpectation) :
    let pruned := state.prune expectation.createdAt
    ∃ (held : List InboundExpectation) (accepted : Bool),
      state.expect linkId expectation =
        ({ pruned with
            expectations := pruned.expectations.insert linkId held },
          accepted) ∧
      (held : Multiset InboundExpectation) ≤
        pruned.pending linkId + (if accepted = true then {expectation} else 0) ∧
      ((pruned.pending linkId).length ≤ maxPendingExpectations →
        held.length ≤ maxPendingExpectations) := by
  intro pruned
  by_cases repeated : (pruned.pending linkId).any fun known =>
      known.id == expectation.id
  · refine ⟨_, true, if_pos repeated, replaceF_le expectation _, ?_⟩
    rw [List.length_replaceF]
    exact id
  · by_cases full : maxPendingExpectations ≤ (pruned.pending linkId).length
    · exact ⟨pruned.pending linkId, false,
        (if_neg repeated).trans (if_pos full), Multiset.le_add_right _ _, id⟩
    · refine ⟨pruned.pending linkId ++ [expectation], true,
        (if_neg repeated).trans (if_neg full), le_rfl, fun _ => ?_⟩
      rw [List.length_append, List.length_singleton]
      omega

/-- What a link expects after its expectations were set. -/
theorem pending_insert (state : AdmissionState) (linkId tested : LinkId)
    (held : List InboundExpectation) :
    ({ state with
        expectations := state.expectations.insert linkId held } :
      AdmissionState).pending tested =
      if tested = linkId then held else state.pending tested := by
  rw [pending, FiniteMap.lookup_insert_ite]
  split
  · rfl
  · rfl

theorem pending_expect (state : AdmissionState) (linkId : LinkId)
    (expectation : InboundExpectation) (tested : LinkId) :
    ((state.expect linkId expectation).1.pending tested :
      Multiset InboundExpectation) ≤
      state.pending tested +
        state.announced tested (.expect linkId expectation) := by
  have pruned := state.pending_prune_le expectation.createdAt tested
  obtain ⟨held, accepted, isExpect, among, -⟩ :=
    state.expect_cases linkId expectation
  rw [announced, isExpect, pending_insert]
  by_cases same : tested = linkId
  · subst same
    rw [if_pos rfl]
    simp only [true_and]
    exact among.trans (add_le_add pruned le_rfl)
  · rw [if_neg same]
    exact pruned.trans (Multiset.le_add_right _ _)

theorem length_pending_expect (state : AdmissionState) (linkId : LinkId)
    (expectation : InboundExpectation) {tested : LinkId}
    (bounded : (state.pending tested).length ≤ maxPendingExpectations) :
    ((state.expect linkId expectation).1.pending tested).length ≤
      maxPendingExpectations := by
  have pruned : ((state.prune expectation.createdAt).pending tested).length ≤
      maxPendingExpectations :=
    (state.length_pending_prune expectation.createdAt tested).trans bounded
  obtain ⟨held, accepted, isExpect, -, short⟩ :=
    state.expect_cases linkId expectation
  rw [isExpect, pending_insert]
  by_cases same : tested = linkId
  · subst same
    rw [if_pos rfl]
    exact short pruned
  · rw [if_neg same]
    exact pruned

theorem running_expect (state : AdmissionState) (linkId : LinkId)
    (expectation : InboundExpectation) (tested : LinkId) :
    (state.expect linkId expectation).1.running tested =
      (state.prune expectation.createdAt).running tested := by
  obtain ⟨held, accepted, isExpect, -, -⟩ :=
    state.expect_cases linkId expectation
  rw [isExpect]
  rfl

/-! ## Offers -/

/-- What a link runs after its transfers were set. -/
theorem running_insert (state : AdmissionState) (linkId tested : LinkId)
    (transfers : FiniteMap (Bytes 32) Instant) :
    ({ state with live := state.live.insert linkId transfers } :
      AdmissionState).running tested =
      if tested = linkId then transfers else state.running tested := by
  rw [running, FiniteMap.lookup_insert_ite]
  split
  · rfl
  · rfl

/-- A transfer that was let in was under way already, or takes a free slot of
a link that expects a payload of its size. -/
structure Admitted (state : AdmissionState) (linkId : LinkId)
    (adv : ResourceAdvertisement) (now : Instant) : Prop where
  enabled : state.enabled = true
  whole : adv.totalSegments ≤ 1 ∧ adv.split = false ∧
    adv.hasMetadata = false ∧ adv.metadataSize = 0
  size : 0 < adv.dataSize ∧ adv.dataSize ≤ state.maxBytes
  reason : ((state.running linkId).lookup adv.resourceHash).isSome = true ∨
    ((state.prune now).running linkId).keys.length <
        maxInboundResourcesPerLink ∧
      ∃ expectation ∈ state.pending linkId,
        expectation.size = adv.dataSize ∧
        now - expectation.createdAt ≤ resourceExpectationTtl

theorem lookup_running (state : AdmissionState) (linkId : LinkId) (resourceHash : Bytes 32) :
    (state.running linkId).lookup resourceHash =
      (state.live.lookup linkId).bind fun running =>
        running.lookup resourceHash := by
  rw [running]
  cases state.live.lookup linkId with
  | none => exact AList.lookup_empty _
  | some transfers => rfl

theorem admitInner_cases (state : AdmissionState) (linkId : LinkId)
    (adv : ResourceAdvertisement) (now : Instant) :
    let pruned := state.prune now
    state.admitInner linkId adv now = (state, false) ∨
    state.admitInner linkId adv now = (pruned, false) ∨
    state.admitInner linkId adv now =
      ({ pruned with
          live := pruned.live.insert linkId (pruned.running linkId) },
        false) ∨
    state.Admitted linkId adv now ∧
      (state.admitInner linkId adv now = (state, true) ∨
        (pruned.running linkId).keys.length < maxInboundResourcesPerLink ∧
        state.admitInner linkId adv now =
          ({ pruned with
              live := pruned.live.insert linkId
                ((pruned.running linkId).insert adv.resourceHash now) },
            true)) := by
  intro pruned
  have decided : state.admitInner linkId adv now =
      if !state.enabled then (state, false)
      else if 1 < adv.totalSegments ∨ adv.split then (state, false)
      else if adv.hasMetadata ∨ 0 < adv.metadataSize then (state, false)
      else if adv.dataSize = 0 ∨ state.maxBytes < adv.dataSize then
        (state, false)
      else if ((state.running linkId).lookup adv.resourceHash).isSome then
        (state, true)
      else if !(pruned.pending linkId).any (fun expectation =>
          expectation.size == adv.dataSize) then (pruned, false)
      else if maxInboundResourcesPerLink ≤
          (pruned.running linkId).keys.length then
        ({ pruned with
            live := pruned.live.insert linkId (pruned.running linkId) },
          false)
      else
        ({ pruned with
            live := pruned.live.insert linkId
              ((pruned.running linkId).insert adv.resourceHash now) },
          true) := by
    rw [lookup_running]
    rfl
  rw [decided]
  by_cases disabled : (!state.enabled) = true
  · exact Or.inl (if_pos disabled)
  rw [if_neg disabled]
  by_cases split : 1 < adv.totalSegments ∨ adv.split = true
  · exact Or.inl (if_pos split)
  rw [if_neg split]
  by_cases metadata : adv.hasMetadata = true ∨ 0 < adv.metadataSize
  · exact Or.inl (if_pos metadata)
  rw [if_neg metadata]
  by_cases sized : adv.dataSize = 0 ∨ state.maxBytes < adv.dataSize
  · exact Or.inl (if_pos sized)
  rw [if_neg sized]
  have admits (reason :
      ((state.running linkId).lookup adv.resourceHash).isSome = true ∨
        (pruned.running linkId).keys.length < maxInboundResourcesPerLink ∧
          ∃ expectation ∈ state.pending linkId,
            expectation.size = adv.dataSize ∧
            now - expectation.createdAt ≤ resourceExpectationTtl) :
      state.Admitted linkId adv now := by
    rw [not_or] at split metadata sized
    have enabled : state.enabled = true := by
      simpa using disabled
    exact ⟨enabled,
      ⟨by omega, Bool.eq_false_iff.mpr split.2,
        Bool.eq_false_iff.mpr metadata.1, by omega⟩,
      ⟨by omega, by omega⟩, reason⟩
  by_cases again : ((state.running linkId).lookup adv.resourceHash).isSome = true
  · exact Or.inr (Or.inr (Or.inr ⟨admits (Or.inl again), Or.inl (if_pos again)⟩))
  rw [if_neg again]
  by_cases unawaited : (!(pruned.pending linkId).any fun expectation =>
      expectation.size == adv.dataSize) = true
  · exact Or.inr (Or.inl (if_pos unawaited))
  rw [if_neg unawaited]
  by_cases full : maxInboundResourcesPerLink ≤ (pruned.running linkId).keys.length
  · exact Or.inr (Or.inr (Or.inl (if_pos full)))
  rw [if_neg full]
  have free : (pruned.running linkId).keys.length <
      maxInboundResourcesPerLink :=
    Nat.not_le.mp full
  have awaited : (pruned.pending linkId).any (fun expectation =>
      expectation.size == adv.dataSize) = true := by
    simpa using unawaited
  obtain ⟨expectation, among, matching⟩ := List.any_eq_true.mp awaited
  rw [pending_prune, List.mem_filter, decide_eq_true_eq] at among
  exact Or.inr (Or.inr (Or.inr
    ⟨admits (Or.inr ⟨free, expectation, among.1, beq_iff_eq.mp matching,
      among.2⟩), Or.inr ⟨free, rfl⟩⟩))

theorem admitted_of_offer {state : AdmissionState} {linkId : LinkId}
    {adv : ResourceAdvertisement} {now : Instant}
    (admitted : (state.admitAdvertised linkId adv now).2 = true) :
    state.Admitted linkId adv now := by
  rw [admitAdvertised] at admitted
  rcases state.admitInner_cases linkId adv now with
    refused | refused | refused | ⟨admits, -⟩
  · rw [refused] at admitted
    cases admitted
  · rw [refused] at admitted
    cases admitted
  · rw [refused] at admitted
    cases admitted
  · exact admits

/-- An offer leaves a link the expectations it has, or those of them that
have not expired. -/
theorem pending_offer (state : AdmissionState) (linkId : LinkId)
    (adv : ResourceAdvertisement) (now : Instant) (tested : LinkId) :
    (state.admitAdvertised linkId adv now).1.pending tested =
        state.pending tested ∨
      (state.admitAdvertised linkId adv now).1.pending tested =
        (state.prune now).pending tested := by
  rw [admitAdvertised]
  rcases state.admitInner_cases linkId adv now with
    refused | refused | refused | ⟨-, again | ⟨-, fresh⟩⟩
  · rw [refused]
    exact Or.inl rfl
  · rw [refused]
    exact Or.inr rfl
  · rw [refused]
    exact Or.inr rfl
  · rw [again]
    exact Or.inl rfl
  · rw [fresh]
    exact Or.inr rfl

/-- An offer takes a slot only when it is let in and a slot is free. -/
theorem size_running_offer (state : AdmissionState) (linkId : LinkId)
    (adv : ResourceAdvertisement) (now : Instant) (tested : LinkId) :
    ((state.admitAdvertised linkId adv now).1.running tested).keys.length ≤
        (state.running tested).keys.length ∨
      tested = linkId ∧ state.Admitted linkId adv now ∧
        ((state.admitAdvertised linkId adv now).1.running
          tested).keys.length ≤ maxInboundResourcesPerLink := by
  have pruned := state.size_running_prune now tested
  rw [admitAdvertised]
  rcases state.admitInner_cases linkId adv now with
    refused | refused | refused | ⟨admits, again | ⟨free, fresh⟩⟩
  · rw [refused]
    exact Or.inl le_rfl
  · rw [refused]
    exact Or.inl pruned
  · rw [refused]
    have same := (state.prune now).running_insert linkId tested
      ((state.prune now).running linkId)
    have kept : (if tested = linkId then (state.prune now).running linkId
        else (state.prune now).running tested) =
          (state.prune now).running tested := by
      by_cases isLink : tested = linkId
      · rw [if_pos isLink, isLink]
      · rw [if_neg isLink]
    have sizes := congrArg (fun transfers => transfers.keys.length)
      (same.trans kept)
    exact Or.inl ((le_of_eq sizes).trans pruned)
  · rw [again]
    exact Or.inl le_rfl
  · rw [fresh]
    dsimp only
    rw [running_insert]
    by_cases isLink : tested = linkId
    · refine Or.inr ⟨isLink, admits, ?_⟩
      rw [if_pos isLink]
      exact (FiniteMap.length_keys_insert _ _ _).trans free
    · rw [if_neg isLink]
      exact Or.inl pruned

/-! ## Claims -/

private theorem cons_eraseP_perm {matching : InboundExpectation → Bool}
    {expectations : List InboundExpectation} {found : InboundExpectation}
    (isFound : expectations.find? matching = some found) :
    (found :: expectations.eraseP matching).Perm expectations := by
  induction expectations with
  | nil => cases isFound
  | cons first rest ih =>
      by_cases fits : matching first = true
      · rw [List.find?_cons_of_pos fits] at isFound
        rw [List.eraseP_cons_of_pos fits, Option.some.inj isFound]
      · rw [List.find?_cons_of_neg fits] at isFound
        rw [List.eraseP_cons_of_neg fits]
        exact (List.Perm.swap first found _).trans ((ih isFound).cons first)

/-- An expectation that is handed out fits the payload, was not expired, and
is held no longer. -/
theorem takeMatching_cases (state : AdmissionState) (linkId : LinkId)
    (size : Nat) (digest : Bytes 32) (now : Instant) :
    let pruned := state.prune now
    state.takeMatching linkId size digest now = (pruned, none) ∨
    ∃ (found : InboundExpectation) (rest : List InboundExpectation),
      state.takeMatching linkId size digest now =
        ({ pruned with
            expectations := pruned.expectations.insert linkId rest },
          some found) ∧
      found.size = size ∧ (∀ want ∈ found.sha256, want = digest) ∧
      (found :: rest).Perm (pruned.pending linkId) := by
  intro pruned
  rw [takeMatching]
  split
  · exact Or.inl rfl
  · rename_i expectations held
    split
    · exact Or.inl rfl
    · rename_i found isFound
      have fits := List.find?_some isFound
      rw [Bool.and_eq_true, beq_iff_eq, Option.all_eq_true] at fits
      refine Or.inr ⟨found, _, rfl, fits.1,
        fun want isWanted => beq_iff_eq.mp (fits.2 want isWanted), ?_⟩
      rw [pending, held]
      exact cons_eraseP_perm isFound

theorem pending_takeMatching (state : AdmissionState) (linkId : LinkId)
    (size : Nat) (digest : Bytes 32) (now : Instant) (tested : LinkId) :
    state.claimed tested (.takeMatching linkId size digest now) +
        ((state.takeMatching linkId size digest now).1.pending tested :
          Multiset InboundExpectation) ≤
      state.pending tested := by
  have pruned := state.pending_prune_le now tested
  rw [claimed]
  rcases state.takeMatching_cases linkId size digest now with
    nothing | ⟨found, rest, taken, -, -, among⟩
  · rw [nothing]
    simp only [Option.toList_none, Multiset.coe_nil, ite_self, zero_add]
    exact pruned
  · rw [taken]
    dsimp only
    rw [pending_insert]
    by_cases isLink : tested = linkId
    · subst isLink
      rw [if_pos rfl, if_pos rfl, Option.toList_some, Multiset.coe_add]
      exact (Multiset.coe_le.mpr among.subperm).trans pruned
    · rw [if_neg isLink, if_neg fun same => isLink same.symm, zero_add]
      exact pruned

/-! ## Releases -/

theorem running_retire (state : AdmissionState) (linkId : LinkId)
    (resourceHash : Bytes 32) (tested : LinkId) :
    (state.retire linkId resourceHash).running tested =
      if tested = linkId then (state.running linkId).erase resourceHash
      else state.running tested := by
  rw [retire]
  split
  · rename_i absent
    have nothing : state.running linkId = ∅ := by
      rw [running, absent]
      rfl
    split
    · rename_i isLink
      rw [isLink, nothing]
      rfl
    · rfl
  · rename_i transfers held
    have isRunning : state.running linkId = transfers := by
      rw [running, held]
      rfl
    rw [isRunning]
    rw [running]
    dsimp only
    by_cases isEmpty : (transfers.erase resourceHash).keys.isEmpty = true
    · rw [if_pos isEmpty, FiniteMap.lookup_erase_ite,
        FiniteMap.eq_empty_of_keys isEmpty]
      split
      · rfl
      · rfl
    · rw [if_neg isEmpty, FiniteMap.lookup_insert_ite]
      split
      · rfl
      · rfl

theorem size_running_retire (state : AdmissionState) (linkId : LinkId)
    (resourceHash : Bytes 32) (tested : LinkId) :
    ((state.retire linkId resourceHash).running tested).keys.length ≤
      (state.running tested).keys.length := by
  rw [running_retire]
  split
  · rename_i isLink
    rw [isLink]
    exact FiniteMap.length_keys_erase _ _
  · exact le_rfl

theorem pending_retire (state : AdmissionState) (linkId : LinkId)
    (resourceHash : Bytes 32) (tested : LinkId) :
    (state.retire linkId resourceHash).pending tested =
      state.pending tested := by
  rw [retire]
  split
  · rfl
  · rfl

theorem pending_forgetLink (state : AdmissionState) (linkId tested : LinkId) :
    (state.forgetLink linkId).pending tested =
      if tested = linkId then [] else state.pending tested := by
  rw [pending, forgetLink, FiniteMap.lookup_erase_ite]
  split
  · rfl
  · rfl

theorem running_forgetLink (state : AdmissionState) (linkId tested : LinkId) :
    (state.forgetLink linkId).running tested =
      if tested = linkId then ∅ else state.running tested := by
  rw [running, forgetLink, FiniteMap.lookup_erase_ite]
  split
  · rfl
  · rfl

theorem size_running_forgetLink (state : AdmissionState) (linkId tested : LinkId) :
    ((state.forgetLink linkId).running tested).keys.length ≤
      (state.running tested).keys.length := by
  rw [running_forgetLink]
  split
  · exact Nat.zero_le _
  · exact le_rfl

/-! ## Runs of calls -/

/-- No link holds more than its share. -/
structure Bounded (state : AdmissionState) : Prop where
  pending : ∀ linkId, (state.pending linkId).length ≤ maxPendingExpectations
  running : ∀ linkId, (state.running linkId).keys.length ≤ maxInboundResourcesPerLink

/-- Only an offer that is let in takes a slot. -/
theorem size_running_perform (state : AdmissionState) (op : AdmissionOp) (tested : LinkId) :
    ((state.perform op).running tested).keys.length ≤
        (state.running tested).keys.length ∨
      ∃ adv now, op = .offer tested adv now ∧
        state.Admitted tested adv now ∧
        ((state.perform op).running tested).keys.length ≤
          maxInboundResourcesPerLink := by
  cases op with
  | expect linkId expectation =>
      left
      rw [perform, running_expect]
      exact state.size_running_prune _ tested
  | offer linkId adv now =>
      rcases state.size_running_offer linkId adv now tested with
        kept | ⟨same, admitted, free⟩
      · exact Or.inl kept
      · subst same
        exact Or.inr ⟨adv, now, rfl, admitted, free⟩
  | takeMatching linkId size digest now =>
      left
      have pruned := state.size_running_prune now tested
      rw [perform]
      rcases state.takeMatching_cases linkId size digest now with
        nothing | ⟨found, rest, taken, -, -, -⟩
      · rw [nothing]
        exact pruned
      · rw [taken]
        exact pruned
  | retire linkId resourceHash =>
      exact Or.inl (state.size_running_retire linkId resourceHash tested)
  | forgetLink linkId => exact Or.inl (state.size_running_forgetLink linkId tested)
  | sweep now => exact Or.inl (state.size_running_prune now tested)
  | noteRejected => exact Or.inl le_rfl

/-- What a link expects after a call, with what the call handed out for it,
it expected before or announced by the call. -/
theorem claimed_add_pending_perform (linkId : LinkId)
    (state : AdmissionState) (op : AdmissionOp) :
    state.claimed linkId op +
        ((state.perform op).pending linkId : Multiset InboundExpectation) ≤
      (state.pending linkId : Multiset InboundExpectation) +
        state.announced linkId op := by
  have keeps (noClaim : state.claimed linkId op = 0)
      (fewer : ((state.perform op).pending linkId :
        Multiset InboundExpectation) ≤ state.pending linkId) :
      state.claimed linkId op +
          ((state.perform op).pending linkId : Multiset InboundExpectation) ≤
        (state.pending linkId : Multiset InboundExpectation) +
          state.announced linkId op := by
    rw [noClaim, zero_add]
    exact fewer.trans (Multiset.le_add_right _ _)
  cases op with
  | expect source expectation =>
      exact (zero_add _).le.trans (state.pending_expect source expectation linkId)
  | offer source adv now =>
      apply keeps rfl
      rw [perform]
      rcases state.pending_offer source adv now linkId with same | same
      · rw [same]
      · rw [same]
        exact state.pending_prune_le now linkId
  | takeMatching source size digest now =>
      exact (state.pending_takeMatching source size digest now linkId).trans (add_zero _).ge
  | retire source resourceHash =>
      apply keeps rfl
      rw [perform, pending_retire]
  | forgetLink source =>
      apply keeps rfl
      rw [perform, pending_forgetLink]
      split
      · exact Multiset.zero_le _
      · exact le_rfl
  | sweep now => exact keeps rfl (state.pending_prune_le now linkId)
  | noteRejected => exact keeps rfl le_rfl

/-- What a link expects after some calls it expected before, or it was to
be expected by one of them. -/
theorem mem_pending_run {linkId : LinkId} {state : AdmissionState}
    {ops : List AdmissionOp} {expectation : InboundExpectation} (expected : expectation ∈
      (runFrom perform state ops).pending linkId) :
    expectation ∈ state.pending linkId ∨
      .expect linkId expectation ∈ ops := by
  induction ops generalizing state with
  | nil => exact Or.inl expected
  | cons op rest ih =>
      rcases ih expected with earlier | later
      · have covered : expectation ∈
            (state.pending linkId : Multiset InboundExpectation) + state.announced linkId op :=
          Multiset.mem_of_le (state.claimed_add_pending_perform linkId op)
            (Multiset.mem_add.mpr (Or.inr (Multiset.mem_coe.mpr earlier)))
        rcases Multiset.mem_add.mp covered with known | new
        · exact Or.inl (Multiset.mem_coe.mp known)
        · refine Or.inr (List.mem_cons.mpr (Or.inl ?_))
          unfold announced at new
          split at new
          · split at new
            · rename_i isLink
              rw [Multiset.mem_singleton.mp new, isLink.1]
            · cases Multiset.notMem_zero expectation new
          · cases Multiset.notMem_zero expectation new
      · exact Or.inr (List.mem_cons_of_mem op later)

theorem bounded_new (enabled : Bool) (maxBytes : Nat) :
    (new enabled maxBytes).Bounded :=
  ⟨fun _ => Nat.zero_le _, fun _ => Nat.zero_le _⟩

theorem bounded_perform {state : AdmissionState} (bounded : state.Bounded)
    (op : AdmissionOp) : (state.perform op).Bounded := by
  refine ⟨fun linkId => ?_, fun linkId => ?_⟩
  · have kept := state.claimed_add_pending_perform linkId op
    have short (noAnnouncement : state.announced linkId op = 0) :
        ((state.perform op).pending linkId).length ≤
          maxPendingExpectations := by
      rw [noAnnouncement, add_zero] at kept
      have fewer := Multiset.card_le_card ((Multiset.le_add_left _ _).trans kept)
      exact fewer.trans (bounded.pending linkId)
    cases op with
    | expect source expectation =>
        exact state.length_pending_expect source expectation (bounded.pending linkId)
    | offer source adv now => exact short rfl
    | takeMatching source size digest now => exact short rfl
    | retire source resourceHash => exact short rfl
    | forgetLink source => exact short rfl
    | sweep now => exact short rfl
    | noteRejected => exact short rfl
  · rcases state.size_running_perform op linkId with
      kept | ⟨adv, now, -, -, free⟩
    · exact kept.trans (bounded.running linkId)
    · exact free

/-- The switch and the cap stay as the gate was made. -/
theorem settings_perform (state : AdmissionState) (op : AdmissionOp) :
    (state.perform op).enabled = state.enabled ∧
      (state.perform op).maxBytes = state.maxBytes := by
  cases op with
  | expect linkId expectation =>
      obtain ⟨_, _, isExpect, -, -⟩ :=
        state.expect_cases linkId expectation
      rw [perform, isExpect]
      exact ⟨rfl, rfl⟩
  | offer linkId adv now =>
      rw [perform, admitAdvertised]
      rcases state.admitInner_cases linkId adv now with
        refused | refused | refused | ⟨-, again | ⟨-, fresh⟩⟩
      · rw [refused]
        exact ⟨rfl, rfl⟩
      · rw [refused]
        exact ⟨rfl, rfl⟩
      · rw [refused]
        exact ⟨rfl, rfl⟩
      · rw [again]
        exact ⟨rfl, rfl⟩
      · rw [fresh]
        exact ⟨rfl, rfl⟩
  | takeMatching linkId size digest now =>
      rw [perform]
      rcases state.takeMatching_cases linkId size digest now with
        nothing | ⟨_, _, taken, -, -, -⟩
      · rw [nothing]
        exact ⟨rfl, rfl⟩
      · rw [taken]
        exact ⟨rfl, rfl⟩
  | retire linkId resourceHash =>
      rw [perform, retire]
      split
      · exact ⟨rfl, rfl⟩
      · exact ⟨rfl, rfl⟩
  | forgetLink linkId => exact ⟨rfl, rfl⟩
  | sweep now => exact ⟨rfl, rfl⟩
  | noteRejected => exact ⟨rfl, rfl⟩

theorem settings_run (state : AdmissionState) (ops : List AdmissionOp) :
    (runFrom perform state ops).enabled = state.enabled ∧
      (runFrom perform state ops).maxBytes = state.maxBytes := by
  induction ops generalizing state with
  | nil => exact ⟨rfl, rfl⟩
  | cons op rest ih =>
      have first := state.settings_perform op
      have later := ih (state.perform op)
      exact ⟨later.1.trans first.1, later.2.trans first.2⟩

/-- The gate is switched off, and nothing is under way. -/
structure Idle (state : AdmissionState) : Prop where
  disabled : state.enabled = false
  running : ∀ linkId, state.running linkId = ∅

theorem idle_new (maxBytes : Nat) : (new false maxBytes).Idle :=
  ⟨rfl, fun _ => rfl⟩

theorem idle_perform {state : AdmissionState} (idle : state.Idle)
    (op : AdmissionOp) : (state.perform op).Idle := by
  refine ⟨(state.settings_perform op).1.trans idle.disabled, fun linkId => ?_⟩
  rcases state.size_running_perform op linkId with
    fewer | ⟨adv, now, -, admits, -⟩
  · rw [idle.running linkId] at fewer
    exact FiniteMap.eq_empty_of_keys
      (List.isEmpty_iff_length_eq_zero.mpr (Nat.le_zero.mp fewer))
  · have enabled := admits.enabled
    rw [idle.disabled] at enabled
    cases enabled

/-- The gate holds nothing for a link. -/
def Vacant (linkId : LinkId) (state : AdmissionState) : Prop :=
  state.pending linkId = [] ∧ state.running linkId = ∅

theorem vacant_forgetLink (state : AdmissionState) (linkId : LinkId) :
    (state.forgetLink linkId).Vacant linkId := by
  rw [Vacant, pending_forgetLink, running_forgetLink, if_pos rfl, if_pos rfl]
  exact ⟨rfl, rfl⟩

/-- Only an announcement of its own brings a link back. -/
theorem vacant_perform {linkId : LinkId} {state : AdmissionState}
    (vacant : state.Vacant linkId) {op : AdmissionOp}
    (unannounced : ∀ expectation, op ≠ .expect linkId expectation) :
    (state.perform op).Vacant linkId := by
  obtain ⟨noPending, noRunning⟩ := vacant
  refine ⟨?_, ?_⟩
  · have kept := state.claimed_add_pending_perform linkId op
    have silent : state.announced linkId op = 0 := by
      cases op with
      | expect source expectation =>
          have other : source ≠ linkId := fun same =>
            unannounced expectation (by rw [same])
          exact if_neg fun both => other both.1
      | offer source adv now => rfl
      | takeMatching source size digest now => rfl
      | retire source resourceHash => rfl
      | forgetLink source => rfl
      | sweep now => rfl
      | noteRejected => rfl
    rw [silent, add_zero, noPending] at kept
    have nothing := (Multiset.le_add_left _ _).trans kept
    exact List.eq_nil_of_length_eq_zero (Nat.le_zero.mp (Multiset.card_le_card nothing))
  · rcases state.size_running_perform op linkId with
      fewer | ⟨adv, now, -, admits, -⟩
    · rw [noRunning] at fewer
      exact FiniteMap.eq_empty_of_keys
        (List.isEmpty_iff_length_eq_zero.mpr (Nat.le_zero.mp fewer))
    · rcases admits.reason with again | ⟨-, expectation, among, -⟩
      · rw [noRunning, AList.lookup_empty] at again
        cases again
      · rw [noPending] at among
        cases among

theorem vacant_run {linkId : LinkId} {state : AdmissionState}
    (vacant : state.Vacant linkId) {ops : List AdmissionOp} (unannounced : ∀ expectation,
      ¬ AdmissionOp.expect linkId expectation ∈ ops) :
    (runFrom perform state ops).Vacant linkId := by
  induction ops generalizing state with
  | nil => exact vacant
  | cons op rest ih =>
      apply ih
      · exact vacant_perform vacant fun expectation same =>
          unannounced expectation (by rw [same]; exact List.mem_cons_self)
      · exact fun expectation among =>
          unannounced expectation (List.mem_cons_of_mem _ among)

end AdmissionState

/-! ## Every order of calls -/

/-- What holds of a gate after any calls in any order. -/
structure AdmissionState.Sound (enabled : Bool) (maxBytes : Nat)
    (ops : List AdmissionOp) (state : AdmissionState) : Prop where
  /-- No link holds more than its share. -/
  bounded : state.Bounded
  /-- What was handed out for a link, and what it still expects, was
  announced on that link, each announcement counted once. -/
  once : ∀ linkId,
    tally perform (claimed linkId) (new enabled maxBytes) ops +
        (state.pending linkId : Multiset InboundExpectation) ≤
      tally perform (announced linkId) (new enabled maxBytes) ops
  /-- An expectation is handed out to its own link for a payload that fits
  it, before it expires. -/
  fits : ∀ linkId size digest now expectation,
    (state.takeMatching linkId size digest now).2 = some expectation →
      expectation ∈ tally perform (announced linkId) (new enabled maxBytes) ops ∧
      expectation.size = size ∧
      (∀ want ∈ expectation.sha256, want = digest) ∧
      now - expectation.createdAt ≤ resourceExpectationTtl
  /-- A transfer is let in only while resources are enabled, within the cap,
  and if it was under way already or was announced. -/
  admits : ∀ linkId adv now,
    (state.admitAdvertised linkId adv now).2 = true →
      enabled = true ∧ 0 < adv.dataSize ∧ adv.dataSize ≤ maxBytes ∧
      (((state.running linkId).lookup adv.resourceHash).isSome = true ∨
        ∃ expectation ∈
          tally perform (announced linkId) (new enabled maxBytes) ops,
          expectation.size = adv.dataSize ∧
          now - expectation.createdAt ≤ resourceExpectationTtl)
  /-- While resources are disabled nothing is under way. -/
  off : enabled = false → ∀ linkId, state.running linkId = ∅
  /-- A link that was forgotten holds nothing. -/
  forgotten : ∀ linkId,
    (state.forgetLink linkId).pending linkId = [] ∧ (state.forgetLink linkId).running linkId = ∅

namespace AdmissionState

theorem sound_run (enabled : Bool) (maxBytes : Nat) (ops : List AdmissionOp) :
    (runFrom perform (new enabled maxBytes) ops).Sound enabled maxBytes
      ops := by
  have bounded : (runFrom perform (new enabled maxBytes) ops).Bounded :=
    invariant_of_forall_step
      (fun (state : AdmissionState) op (kept : state.Bounded) =>
        bounded_perform kept op)
      ops (bounded_new enabled maxBytes)
  have idle (disabled : enabled = false) :
      (runFrom perform (new enabled maxBytes) ops).Idle := by
    rw [disabled]
    exact invariant_of_forall_step
      (fun (state : AdmissionState) op (kept : state.Idle) =>
        idle_perform kept op)
      ops (idle_new maxBytes)
  have once (linkId : LinkId) := tally_add_held_le
    (fun state : AdmissionState =>
      (state.pending linkId : Multiset InboundExpectation))
    (claimed_add_pending_perform linkId) (new enabled maxBytes) ops
  have settings := settings_run (new enabled maxBytes) ops
  have noStart (linkId : LinkId) : ((new enabled maxBytes).pending linkId :
      Multiset InboundExpectation) = 0 :=
    rfl
  simp only [noStart, zero_add] at once
  generalize runFrom perform (new enabled maxBytes) ops = state at *
  have held (linkId : LinkId) (expectation : InboundExpectation)
      (among : expectation ∈ state.pending linkId) :
      expectation ∈ tally perform (announced linkId) (new enabled maxBytes) ops :=
    Multiset.mem_of_le ((Multiset.le_add_left _ _).trans (once linkId)) among
  constructor
  · exact bounded
  · exact once
  · intro linkId size digest now expectation taken
    rcases state.takeMatching_cases linkId size digest now with
      nothing | ⟨found, rest, found_taken, sized, digested, among⟩
    · rw [nothing] at taken
      cases taken
    · rw [found_taken] at taken
      have isFound : found = expectation := Option.some.inj taken
      subst isFound
      have kept : found ∈ (state.prune now).pending linkId :=
        among.subset List.mem_cons_self
      rw [pending_prune, List.mem_filter, decide_eq_true_eq] at kept
      exact ⟨held linkId found kept.1, sized, digested, kept.2⟩
  · intro linkId adv now admitted
    have admits := admitted_of_offer admitted
    refine ⟨settings.1.symm.trans admits.enabled, admits.size.1,
      admits.size.2.trans (le_of_eq settings.2), ?_⟩
    rcases admits.reason with again | ⟨-, expectation, among, fits, fresh⟩
    · exact Or.inl again
    · exact Or.inr ⟨expectation, held linkId expectation among, fits, fresh⟩
  · exact fun disabled => (idle disabled).running
  · intro linkId
    rw [pending_forgetLink, running_forgetLink, if_pos rfl, if_pos rfl]
    exact ⟨rfl, rfl⟩

end AdmissionState

end Ratspeak
