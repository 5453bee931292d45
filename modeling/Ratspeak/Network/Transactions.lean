import Ratspeak.Network.Ownership

/-!
# A change of ownership is a transaction

Whatever fails, and however a change unwinds, the saved selection and its
credential stay as they were, nothing stays proposed and no identity stays
retained.  Of the protected storage the same can be said but for one case: a
key that was written, could not be verified and could not be removed either
stays behind, and nobody is told.
-/

namespace Ratspeak.Network

open Library

/-! ## What a change promises -/

/-- The saved selection of a profile refers to a credential. -/
def Refers (state : NetworkState) (profile id : String) : Prop :=
  ∃ selection, state.settings profile = .valid selection ∧ selection.credentialRef = some id

/-- The message says that a credential could not be removed. -/
def TellsUnremoved : ChangeOutcome → Prop
  | .changed error => error = some "Network changed, but an unused credential could not be removed from protected storage."
  | .failed message => unremoved.toList <:+ message.toList
  | .unwound => False

/-- A change that returns leaves no credential behind that is not referred
to, unless it says so.  What was in the storage before and belonged to nobody
here is not its business. -/
def Tidy (before after : NetworkState) (profile : String) (outcome : ChangeOutcome) : Prop :=
  ∀ id, (after.credentials.lookup id).isSome = true →
    Refers after profile id ∨
      ((before.credentials.lookup id).isSome = true ∧ ¬Refers before profile id) ∨
      TellsUnremoved outcome

structure Transactional (profile : String) (before after : NetworkState)
    (outcome : ChangeOutcome) : Prop where
  /-- Only a change that says so changes the selection. -/
  kept : (∀ error, outcome ≠ .changed error) →
    after.settings = before.settings ∧
      ∀ id, Refers before profile id →
        after.credentials.lookup id = before.credentials.lookup id
  readable : ∀ error, outcome = .changed error →
    (∃ selection, after.settings profile = .valid selection) ∧
      ∀ id, Refers after profile id → (after.credentials.lookup id).isSome = true
  tidy : outcome ≠ .unwound → Tidy before after profile outcome
  unproposed : before.session.proposed = none → after.session.proposed = none
  /-- No identity stays retained that was not retained before. -/
  released : after.session.retainedIdentity = none ∨
    after.session.retainedIdentity = before.session.retainedIdentity

/-! ## Steps that touch the session only -/

/-- A step leaves the settings and the storage alone. -/
def SessionOnly (before after : NetworkState) : Prop :=
  after.settings = before.settings ∧ after.credentials = before.credentials

theorem sessionOnly_releaseRetained (state : NetworkState) (lock : Bool) :
    SessionOnly state (state.releaseRetained lock) := by
  unfold NetworkState.releaseRetained
  split
  · dsimp only
    split
    · exact ⟨rfl, rfl⟩
    · exact ⟨rfl, rfl⟩
  · exact ⟨rfl, rfl⟩

@[simp]
theorem releaseRetained_retained (state : NetworkState) (lock : Bool) :
    (state.releaseRetained lock).session.retainedIdentity = none := by
  unfold NetworkState.releaseRetained
  split
  · dsimp only
    split
    · rfl
    · rfl
  · assumption

@[simp]
theorem releaseRetained_proposed (state : NetworkState) (lock : Bool) :
    (state.releaseRetained lock).session.proposed = state.session.proposed := by
  unfold NetworkState.releaseRetained
  split
  · dsimp only
    split
    · rfl
    · rfl
  · rfl

@[simp]
theorem removeCredential_session (state : NetworkState) (id : Option String) (removed : Bool) :
    (state.removeCredential id removed).session = state.session := by
  unfold NetworkState.removeCredential
  split
  · split
    · rfl
    · rfl
  · rfl

@[simp]
theorem removeCredential_settings (state : NetworkState) (id : Option String) (removed : Bool) :
    (state.removeCredential id removed).settings = state.settings := by
  unfold NetworkState.removeCredential
  split
  · split
    · rfl
    · rfl
  · rfl

theorem lookup_removeCredential (state : NetworkState) (id : Option String)
    (removed : Bool) (tested : String) :
    (state.removeCredential id removed).credentials.lookup tested =
      if removed = true ∧ id = some tested then none
      else state.credentials.lookup tested := by
  unfold NetworkState.removeCredential
  cases id with
  | none => simp
  | some id =>
      cases removed with
      | false => simp
      | true =>
          by_cases same : tested = id
          · simp [same]
          · have other : ¬id = tested := fun equal => same equal.symm
            simp [same, other]

theorem sessionOnly_setError (state : NetworkState) (error : Option String) :
    SessionOnly state (state.setError error) :=
  ⟨rfl, rfl⟩

theorem dropGuard_spec (state : NetworkState) :
    SessionOnly state (dropGuard state) ∧
      (dropGuard state).session.proposed = none ∧
      (dropGuard state).session.retainedIdentity = none := by
  have released := sessionOnly_releaseRetained (state.setProposed none) true
  refine ⟨released, ?_, ?_⟩
  · exact (releaseRetained_proposed (state.setProposed none) true).trans rfl
  · exact releaseRetained_retained (state.setProposed none) true

/-! ## Changes that fail -/

/-- Nothing has changed yet but for a credential that is staged. -/
structure Staged (before state : NetworkState) (staged : Option String) :
    Prop where
  settings : state.settings = before.settings
  others : ∀ id, staged ≠ some id → state.credentials.lookup id = before.credentials.lookup id
  fresh : ∀ id, staged = some id →
    before.credentials.lookup id = none ∧ ∀ profile, ¬Refers before profile id
  present : ∀ id, staged = some id → (state.credentials.lookup id).isSome = true

theorem Staged.sessionOnly {before state after : NetworkState}
    {staged : Option String} (holds : Staged before state staged)
    (only : SessionOnly state after) : Staged before after staged where
  settings := only.1.trans holds.settings
  others := fun id other => by rw [only.2, holds.others id other]
  fresh := holds.fresh
  present := fun id same => by rw [only.2]; exact holds.present id same

/-- A change that unwinds under the guard. -/
theorem Staged.unwound {before state : NetworkState}
    {staged : Option String} (holds : Staged before state staged) (profile : String) :
    Transactional profile before (dropGuard state) .unwound := by
  obtain ⟨only, unproposed, released⟩ := dropGuard_spec state
  have after := holds.sessionOnly only
  refine ⟨fun _ => ⟨after.settings, fun id refers => ?_⟩, ?_, ?_,
    fun _ => unproposed, Or.inl released⟩
  · refine after.others id fun same => ?_
    exact (after.fresh id same).2 profile refers
  · intro error never
    cases never
  · intro never
    exact absurd rfl never

/-- A change that fails once its staged credential is removed, or with a
message that it could not be. -/
theorem Staged.failed {before state after : NetworkState}
    {staged : Option String} (holds : Staged before state staged)
    {removed : Bool} {message : String}
    (only : SessionOnly (state.removeCredential staged removed) after)
    (tells : cleaned staged removed = false → unremoved.toList <:+ message.toList)
    (profile : String) (unproposed : before.session.proposed = none →
      after.session.proposed = none)
    (released : after.session.retainedIdentity = none ∨
      after.session.retainedIdentity = before.session.retainedIdentity) :
    Transactional profile before after (.failed message) := by
  have settings : after.settings = before.settings := by
    rw [only.1, removeCredential_settings, holds.settings]
  have lookup (id : String) : after.credentials.lookup id =
      if removed = true ∧ staged = some id then none
      else state.credentials.lookup id := by
    rw [only.2, lookup_removeCredential]
  have others (id : String) (other : staged ≠ some id) :
      after.credentials.lookup id = before.credentials.lookup id := by
    rw [lookup, if_neg fun both => other both.2, holds.others id other]
  refine ⟨fun _ => ⟨settings, fun id refers => ?_⟩, ?_, fun _ => ?_,
    unproposed, released⟩
  · refine others id fun same => ?_
    exact (holds.fresh id same).2 profile refers
  · intro error never
    cases never
  · intro id inside
    by_cases same : staged = some id
    · rw [lookup] at inside
      by_cases gone : removed = true
      · rw [if_pos ⟨gone, same⟩] at inside
        cases inside
      · refine Or.inr (Or.inr (tells ?_))
        simp [cleaned, same, Bool.eq_false_iff.mpr gone]
    · rw [others id same] at inside
      by_cases refers : Refers before profile id
      · obtain ⟨selection, known, reference⟩ := refers
        exact Or.inl ⟨selection, by rw [settings]; exact known, reference⟩
      · exact Or.inr (Or.inl ⟨inside, refers⟩)

theorem Staged.rolledBack {before state : NetworkState}
    {staged : Option String} (holds : Staged before state staged)
    (profile error : String) (around : Surroundings) :
    Transactional profile before (rollBack state staged error around).1
      (rollBack state staged error around).2 := by
  have unproposed : Staged before (state.setProposed none) staged :=
    holds.sessionOnly ⟨rfl, rfl⟩
  unfold rollBack
  by_cases unwinds : around.stoppedAgain = .unwinds
  · rw [if_pos unwinds]
    exact holds.unwound profile
  · rw [if_neg unwinds]
    dsimp only
    split
    · exact unproposed.unwound profile
    · generalize hLock :
        (!decide (around.stoppedAgain = .succeeds ∧ around.restored = .succeeds)) = lock
      have released := unproposed.sessionOnly
        (sessionOnly_releaseRetained (state.setProposed none) lock)
      split
      · exact released.unwound profile
      · refine released.failed (sessionOnly_setError _ _) (fun left => ?_)
          profile (fun _ => ?_) (Or.inl ?_)
        · rw [left, String.toList_append]
          exact List.suffix_append _ _
        · simp [NetworkState.setError, NetworkState.setProposed]
        · simp [NetworkState.setError]

/-! ## Changes that are committed -/

theorem Staged.committed {before state : NetworkState} {staged : Option String}
    (holds : Staged before state staged) {profile : String}
    {previous : Option Selection} {selection : Selection}
    (known : ∀ old, before.settings profile = .valid old → previous = some old)
    (reference : ∀ id, staged = some id → selection.credentialRef = some id)
    (readable : ∀ id, selection.credentialRef = some id →
      (state.credentials.lookup id).isSome = true)
    {final : NetworkState} (settings : final.settings =
      Function.update before.settings profile (.valid selection))
    (credentials : final.credentials = state.credentials) (around : Surroundings) :
    Transactional profile before
      (finish final previous selection around).1
      (finish final previous selection around).2 := by
  have current : (finish final previous selection around).1.settings
      profile = .valid selection := by
    unfold finish
    dsimp only
    split
    · simp [NetworkState.setRetained, NetworkState.setProposed, settings]
    · simp [NetworkState.setRetained, NetworkState.setProposed, NetworkState.setError, settings]
  have lookup (id : String) :
      (finish final previous selection around).1.credentials.lookup id =
        if around.removedPrevious = true ∧
            ((previous.bind Selection.credentialRef).filter fun old =>
              some old ≠ selection.credentialRef) = some id then none
        else state.credentials.lookup id := by
    have removal := lookup_removeCredential
      ((final.setProposed none).setRetained none)
      ((previous.bind Selection.credentialRef).filter fun old =>
        some old ≠ selection.credentialRef) around.removedPrevious id
    have storage : ((final.setProposed none).setRetained
        none).credentials = state.credentials := credentials
    rw [storage] at removal
    rw [← removal]
    unfold finish
    dsimp only
    split
    · rfl
    · rfl
  have refersIff (id : String) : Refers
      (finish final previous selection around).1 profile id ↔
        selection.credentialRef = some id := by
    constructor
    · rintro ⟨found, same, refers⟩
      rw [current] at same
      cases same
      exact refers
    · intro refers
      exact ⟨selection, current, refers⟩
  refine ⟨fun never => absurd rfl (never _), ?_, fun _ id inside => ?_,
    fun _ => ?_, Or.inl ?_⟩
  · intro error _
    refine ⟨⟨selection, current⟩, fun id refers => ?_⟩
    have referred := (refersIff id).mp refers
    rw [lookup, if_neg]
    · exact readable id referred
    · rintro ⟨_, removed⟩
      have passes := (Option.filter_eq_some_iff.mp removed).2
      simp [referred] at passes
  · by_cases referred : selection.credentialRef = some id
    · exact Or.inl ((refersIff id).mpr referred)
    · have other : staged ≠ some id := fun same =>
        referred (reference id same)
      by_cases owned : Refers before profile id
      · obtain ⟨old, stands, refers⟩ := owned
        have removal : ((previous.bind Selection.credentialRef).filter
            fun old => some old ≠ selection.credentialRef) = some id := by
          have differs : some id ≠ selection.credentialRef :=
            fun same => referred same.symm
          rw [known old stands, Option.bind_some, refers, Option.filter_some,
            if_pos (decide_eq_true differs)]
        by_cases removed : around.removedPrevious = true
        · rw [lookup, if_pos ⟨removed, removal⟩] at inside
          cases inside
        · refine Or.inr (Or.inr ?_)
          have left : cleaned ((previous.bind
              Selection.credentialRef).filter fun old =>
                some old ≠ selection.credentialRef)
              around.removedPrevious = false := by
            rw [removal]
            simp [cleaned, Bool.eq_false_iff.mpr removed]
          unfold finish
          dsimp only
          rw [if_neg (by rw [left]; decide)]
          rfl
      · refine Or.inr (Or.inl ⟨?_, owned⟩)
        rw [lookup] at inside
        split at inside
        · cases inside
        · rw [holds.others id other] at inside
          exact inside
  · unfold finish
    dsimp only
    split
    · simp [NetworkState.setRetained, NetworkState.setProposed]
    · simp [NetworkState.setRetained, NetworkState.setProposed, NetworkState.setError]
  · unfold finish
    dsimp only
    split
    · simp [NetworkState.setRetained, NetworkState.setProposed]
    · simp [NetworkState.setRetained, NetworkState.setProposed, NetworkState.setError]

/-- What a transition needs to know of the selection it brings in. -/
structure Proposable (before state : NetworkState) (checked : Checked)
    (selection : Selection) (staged : Option String) : Prop where
  known : ∀ old, before.settings checked.profile = .valid old → checked.previous = some old
  reference : ∀ id, staged = some id → selection.credentialRef = some id
  readable : ∀ id, selection.credentialRef = some id →
    (state.credentials.lookup id).isSome = true

theorem Staged.transitioned {before state : NetworkState}
    {staged : Option String} (holds : Staged before state staged)
    (session : state.session = before.session) {checked : Checked} {selection : Selection}
    (proposable : Proposable before state checked selection staged) (around : Surroundings) :
    Transactional checked.profile before
      (transition state checked selection staged around).1
      (transition state checked selection staged around).2 := by
  have begun : Staged before
      ((((state.setRetained (some checked.retained)).setProposed
        (some (checked.profile, selection,
          checked.prepared.credentials)))).setError none) staged :=
    holds.sessionOnly ⟨rfl, rfl⟩
  unfold transition
  cases around.stopped with
  | unwinds => exact holds.unwound checked.profile
  | fails =>
      refine holds.failed ⟨rfl, rfl⟩ (fun left => ?_) checked.profile
        (fun none => ?_) (Or.inr ?_)
      · rw [left, String.toList_append]
        exact List.suffix_append _ _
      · rw [removeCredential_session, session, none]
      · rw [removeCredential_session, session]
  | succeeds =>
      dsimp only [startAndCommit]
      cases around.started with
      | unwinds => exact begun.unwound checked.profile
      | fails error => exact begun.rolledBack checked.profile error around
      | succeeds =>
          cases around.committed with
          | unwinds => exact begun.unwound checked.profile
          | fails => exact begun.rolledBack checked.profile _ around
          | succeeds =>
              dsimp only
              refine holds.committed proposable.known proposable.reference
                proposable.readable ?_ ?_ around
              · rw [← holds.settings]
                rfl
              · rfl

/-! ## What was checked -/

theorem readCredentials_known {state : NetworkState}
    {selection : Selection} {around : Surroundings} {credentials : SharedInstanceCredentials}
    (read : readCredentials state selection around = .ok credentials) :
    ∃ id, selection.credentialRef = some id ∧
      (state.credentials.lookup id).isSome = true := by
  unfold readCredentials at read
  obtain ⟨chosen, _, read⟩ := bind_eq_ok read
  obtain ⟨endpoint, _, read⟩ := bind_eq_ok read
  obtain ⟨id, reference, read⟩ := bind_eq_ok read
  obtain ⟨key, found, _⟩ := bind_eq_ok read
  unfold readKey at found
  split at found
  · exact ⟨id, okOr_eq_ok reference, by rw [okOr_eq_ok found]; rfl⟩
  · cases found

/-- A request without a key refers to a credential that can be read, if to
any. -/
theorem prepareExisting_known {state : NetworkState}
    {request : NetworkRequest} {around : Surroundings}
    {supplied : Option (List UInt8)} {prepared : Prepared}
    (isOk : prepareExisting state request supplied around = .ok prepared) :
    prepared.newKey = supplied ∧
      (supplied = none → ∀ id, prepared.selection.credentialRef = some id →
        (state.credentials.lookup id).isSome = true) := by
  unfold prepareExisting at isOk
  obtain ⟨_, _, isOk⟩ := bind_eq_ok isOk
  obtain ⟨chosen, _, isOk⟩ := bind_eq_ok isOk
  obtain ⟨endpoint, _, isOk⟩ := bind_eq_ok isOk
  obtain ⟨known, found, isOk⟩ := bind_eq_ok isOk
  split at isOk
  · cases isOk
  · cases isOk
    refine ⟨rfl, fun none id reference => ?_⟩
    subst none
    unfold existingCredentials at found
    obtain ⟨saved, _, found⟩ := bind_eq_ok found
    obtain ⟨credentials, read, found⟩ := bind_eq_ok found
    cases found
    obtain ⟨known, same, readable⟩ := readCredentials_known read
    rw [reference] at same
    cases same
    exact readable

theorem prepare_known {state : NetworkState} {request : NetworkRequest}
    {around : Surroundings} {prepared : Prepared}
    (isOk : prepare state request around = .ok prepared) (noKey : prepared.newKey = none) :
    ∀ id, prepared.selection.credentialRef = some id →
      (state.credentials.lookup id).isSome = true := by
  unfold prepare at isOk
  obtain ⟨supplied, _, isOk⟩ := bind_eq_ok isOk
  split at isOk
  · split at isOk
    · cases isOk
    · cases isOk
      intro id never
      cases never
  · obtain ⟨same, known⟩ := prepareExisting_known isOk
    exact known (same.symm.trans noKey)

/-- The profile of a change. -/
def changedProfile (around : Surroundings) : String :=
  "network_ownership.v1." ++ around.identity

theorem check_known {state : NetworkState} {request : NetworkRequest}
    {around : Surroundings} {checked : Checked}
    (isOk : check state request around = .ok checked) :
    checked.profile = changedProfile around ∧
      (∀ old, state.settings checked.profile = .valid old → checked.previous = some old) ∧
      prepare state request around = .ok checked.prepared := by
  unfold check at isOk
  obtain ⟨requested, profile, isOk⟩ := bind_eq_ok isOk
  obtain ⟨later, _, isOk⟩ := bind_eq_ok isOk
  obtain ⟨_, _, isOk⟩ := bind_eq_ok isOk
  obtain ⟨_, _, isOk⟩ := bind_eq_ok isOk
  obtain ⟨previous, read, isOk⟩ := bind_eq_ok isOk
  obtain ⟨retained, _, isOk⟩ := bind_eq_ok isOk
  obtain ⟨prepared, isPrepared, isOk⟩ := bind_eq_ok isOk
  cases isOk
  refine ⟨?_, fun old known => ?_, isPrepared⟩
  · unfold profileKey at profile
    split at profile
    · cases profile
    · cases profile
      rfl
  · unfold saved at read
    split at read
    · cases read
    · rw [known] at read
      cases read
      rfl

/-! ## Whole changes -/

/-- The identifier of a new credential is not in use. -/
def FreshId (state : NetworkState) (around : Surroundings) : Prop :=
  state.credentials.lookup around.freshId = none ∧
    ∀ profile, ¬Refers state profile around.freshId

/-- A key is written that cannot be verified, and cannot be removed. -/
def LosesUnverified (state : NetworkState) (request : NetworkRequest)
    (around : Surroundings) : Prop :=
  ∃ checked key kept, check state request around = .ok checked ∧
    checked.prepared.newKey = some key ∧ around.written = some kept ∧
    ¬(around.readBack = true ∧ kept = key) ∧
    around.removedUnverified = false

/-- A change that fails before anything is staged. -/
theorem transactional_refl (profile : String) (state : NetworkState) (message : String) :
    Transactional profile state state (.failed message) := by
  refine ⟨fun _ => ⟨rfl, fun _ _ => rfl⟩, ?_, fun _ id inside => ?_,
    fun none => none, Or.inr rfl⟩
  · intro error never
    cases never
  · by_cases refers : Refers state profile id
    · exact Or.inl refers
    · exact Or.inr (Or.inl ⟨inside, refers⟩)

/-- A key that is kept in the storage under a new identifier. -/
theorem staged_insert {state : NetworkState} {around : Surroundings}
    (fresh : FreshId state around) (kept : List UInt8) :
    Staged state
      { state with
        credentials := state.credentials.insert around.freshId kept }
      (some around.freshId) where
  settings := rfl
  others := by
    intro id other
    have differs : id ≠ around.freshId := fun same => other (by rw [same])
    simp [differs]
  fresh := by
    intro id same
    cases same
    exact fresh
  present := by
    intro id same
    cases same
    simp

/-- A key that could not be verified. -/
def unverified : String :=
  "Protected storage could not verify the saved key. The current network has not changed."

/-- A key that could not be verified is removed, or stays behind without a
word. -/
theorem unverified_iff {state : NetworkState} {around : Surroundings}
    (fresh : FreshId state around) (kept : List UInt8) (profile : String) :
    Transactional profile state
        { state with
          credentials :=
            if around.removedUnverified = true then
              (state.credentials.insert around.freshId kept).erase around.freshId
            else state.credentials.insert around.freshId kept }
        (.failed unverified) ↔
      around.removedUnverified = true := by
  have staged := staged_insert fresh kept
  by_cases removed : around.removedUnverified = true
  · refine iff_of_true ?_ removed
    refine @Staged.failed _ _ _ _ staged true unverified ?_ ?_ profile
      (fun none => none) (Or.inr rfl)
    · rw [if_pos removed]
      exact ⟨rfl, rfl⟩
    · intro never
      cases never
  · refine iff_of_false (fun transactional => ?_) removed
    rw [if_neg removed] at transactional
    have left := transactional.tidy nofun around.freshId (staged.present around.freshId rfl)
    rcases left with refers | ⟨before, _⟩ | tells
    · exact fresh.2 profile refers
    · rw [fresh.1] at before
      cases before
    · have silent : ¬unremoved.toList <:+ unverified.toList := by
        decide +kernel
      exact silent tells

/-- A change that brings a key. -/
theorem staged_iff {state : NetworkState} {request : NetworkRequest}
    {around : Surroundings} (fresh : FreshId state around)
    {checked : Checked} (checks : check state request around = .ok checked)
    {key : List UInt8} (newKey : checked.prepared.newKey = some key) :
    Transactional (changedProfile around) state
        (apply state request around).1 (apply state request around).2 ↔
      ¬LosesUnverified state request around := by
  have losesIff : LosesUnverified state request around ↔
      ∃ kept, around.written = some kept ∧
        ¬(around.readBack = true ∧ kept = key) ∧
        around.removedUnverified = false := by
    constructor
    · rintro ⟨other, _, kept, isOk, supplied, rest⟩
      rw [checks] at isOk
      cases isOk
      rw [newKey] at supplied
      cases supplied
      exact ⟨kept, rest⟩
    · rintro ⟨kept, rest⟩
      exact ⟨checked, key, kept, checks, newKey, rest⟩
  obtain ⟨profile, known, _⟩ := check_known checks
  unfold apply
  rw [checks, losesIff]
  dsimp only
  rw [newKey]
  dsimp only [stageKey]
  cases written : around.written with
  | none =>
      refine iff_of_true (transactional_refl _ state _) ?_
      rintro ⟨kept, never, _⟩
      cases never
  | some kept =>
      dsimp only
      by_cases verified : around.readBack = true ∧ kept = key
      · rw [if_pos verified]
        dsimp only
        rw [← profile]
        have staged := staged_insert fresh kept
        refine iff_of_true (staged.transitioned rfl ⟨known, fun id same => same, ?_⟩ around) ?_
        · intro id same
          cases same
          exact staged.present around.freshId rfl
        · rintro ⟨other, same, never, _⟩
          cases same
          exact never verified
      · rw [if_neg verified]
        refine (unverified_iff fresh kept (changedProfile around)).trans ?_
        constructor
        · rintro removed ⟨_, _, _, never⟩
          rw [removed] at never
          cases never
        · intro never
          by_contra left
          exact never ⟨kept, rfl, verified, Bool.eq_false_iff.mpr left⟩

/-- A change is a transaction, unless it loses a key that it could not
verify. -/
theorem networkChange_iff (state : NetworkState) (request : NetworkRequest)
    (around : Surroundings) (fresh : FreshId state around) :
    Transactional (changedProfile around) state
        (apply state request around).1 (apply state request around).2 ↔
      ¬LosesUnverified state request around := by
  cases checks : check state request around with
  | error error =>
      have kept : ¬LosesUnverified state request around := by
        rintro ⟨checked, _, _, isOk, _⟩
        rw [checks] at isOk
        cases isOk
      unfold apply
      rw [checks]
      exact iff_of_true (transactional_refl _ state error) kept
  | ok checked =>
      obtain ⟨profile, known, prepared⟩ := check_known checks
      cases newKey : checked.prepared.newKey with
      | none =>
          have kept : ¬LosesUnverified state request around := by
            rintro ⟨other, _, _, isOk, supplied, _⟩
            rw [checks] at isOk
            cases isOk
            rw [newKey] at supplied
            cases supplied
          have nothing : Staged state state none := by
            refine ⟨rfl, fun _ _ => rfl, ?_, ?_⟩
            · intro id never
              cases never
            · intro id never
              cases never
          unfold apply
          rw [checks, ← profile]
          dsimp only
          rw [newKey]
          refine iff_of_true (nothing.transitioned rfl
            ⟨known, fun _ never => (nomatch never),
              prepare_known prepared newKey⟩ around) kept
      | some key => exact staged_iff fresh checks newKey

/-! ## A key that stays behind -/

/-- A profile that has chosen nothing yet. -/
def unchosen : NetworkState where
  settings := fun _ => .absent
  credentials := ∅
  session := ⟨none, none, none⟩
  locked := []

/-- Use an instance on this machine, with its key. -/
def useExisting : NetworkRequest :=
  ⟨.existing, false, some (.tcp 37428 37429), some "1234"⟩

/-- Everything goes well but for reading the key back. -/
def unreadable (removed : Bool) : Surroundings where
  identity := "profile"
  identityLater := "profile"
  generationChanged := false
  developerMode := true
  settingsRead := true
  unlocked := some ⟨"profile", false⟩
  settingsReadAgain := true
  android := false
  invalidEndpoint := fun _ => none
  invalidKey := fun _ _ => none
  refused := fun _ _ => none
  credentialRead := true
  freshId := "credential"
  written := some [0x12, 0x34]
  writeError := storageError
  readBack := false
  removedUnverified := removed
  stopped := .succeeds
  removedUnstarted := true
  started := .succeeds
  committed := .succeeds
  stoppedAgain := .succeeds
  restored := .succeeds
  removedStaged := .succeeds
  removedPrevious := true

private theorem unreadable_fresh (removed : Bool) :
    FreshId unchosen (unreadable removed) := by
  refine ⟨rfl, fun profile refers => ?_⟩
  obtain ⟨selection, never, _⟩ := refers
  cases never

/-- A key that is removed again leaves a transaction. -/
theorem networkChange_iff_removed :
    Transactional "network_ownership.v1.profile" unchosen
      (apply unchosen useExisting (unreadable true)).1
      (apply unchosen useExisting (unreadable true)).2 := by
  refine (networkChange_iff unchosen useExisting (unreadable true)
    (unreadable_fresh true)).mpr ?_
  rintro ⟨_, _, _, _, _, _, _, left⟩
  cases left

/-- The credential stays in the storage, nothing refers to it and the message
is silent about it. -/
theorem networkChange_loses :
    FreshId unchosen (unreadable false) ∧
      (apply unchosen useExisting (unreadable false)).2 = .failed unverified ∧
      ¬Transactional "network_ownership.v1.profile" unchosen
        (apply unchosen useExisting (unreadable false)).1
        (apply unchosen useExisting (unreadable false)).2 := by
  have message : (apply unchosen useExisting (unreadable false)).2 =
      .failed unverified := by
    decide +kernel
  refine ⟨unreadable_fresh false, message, fun transactional => ?_⟩
  have kept : ((apply unchosen useExisting
      (unreadable false)).1.credentials.lookup "credential").isSome = true := by
    decide +kernel
  have absent : (apply unchosen useExisting (unreadable false)).1.settings =
      unchosen.settings :=
    (transactional.kept fun error never => by
      rw [message] at never
      cases never).1
  rcases transactional.tidy (fun never => by
      rw [message] at never
      cases never) "credential" kept with refers | ⟨before, _⟩ | tells
  · obtain ⟨selection, never, _⟩ := refers
    rw [absent] at never
    cases never
  · cases before
  · rw [message] at tells
    have silent : ¬unremoved.toList <:+ unverified.toList := by
      decide +kernel
    exact silent tells

end Ratspeak.Network
