import Ratspeak.Database.Effects

/-!
# Exactly once

Every ledger that operations reach is sound: a tombstone excludes an effect,
and a receipt that authorises the removal of a message elsewhere stands for an
effect that is retained here.  So the effect of a message is applied at most
once, and never after the message was deleted; and no receipt outlives what it
stands for.
-/

namespace Ratspeak

open Library

/-- The tables of the ledger agree with each other. -/
structure AdmissionDb.Sound (db : AdmissionDb) : Prop where
  buried : ∀ key, (db.userDeleted.lookup key).isSome = true → db.effects.lookup key = none
  retained : ∀ key row, db.receipts.lookup key = some row →
    row.disposition.isPolicy = false →
      row.expiresAt = none ∧
        ∃ effect, db.effects.lookup (key.1, row.messageId) = some effect ∧
          row.storedWireHash = some effect.storedWireHash
  expires : ∀ key row, db.receipts.lookup key = some row →
    row.disposition.isPolicy = true →
      row.storedWireHash = none ∧
        row.expiresAt = some (min (row.committedAt + policyReceiptSeconds) clockLimit)

theorem sound_fresh (app : AppTables) : (AdmissionDb.fresh app).Sound where
  buried _ _ := rfl
  retained _ _ found := nomatch found
  expires _ _ found := nomatch found

/-! ## Revoking -/

theorem AdmissionDb.Sound.revoke {before after : AdmissionDb}
    {doomed : List EffectKey} (sound : before.Sound)
    (revoked : Revoked doomed before after) : after.Sound := by
  have kept (key : ReceiptKey) (row : ReceiptRow)
      (found : after.receipts.lookup key = some row) :
      before.receipts.lookup key = some row ∧
        (key.1, row.messageId) ∉ doomed := by
    rw [revoked.receipts, Option.filter_eq_some_iff] at found
    simpa using found
  refine ⟨fun key tomb => ?_, fun key row found standing => ?_,
    fun key row found isPolicy => ?_⟩
  · rw [revoked.effects]
    split
    · rfl
    · rename_i spared
      rcases (revoked.userDeleted key).mp tomb with isDoomed | earlier
      · exact (spared isDoomed).elim
      · exact sound.buried key earlier
  · obtain ⟨held, spared⟩ := kept key row found
    rw [revoked.effects, if_neg spared]
    exact sound.retained key row held standing
  · exact sound.expires key row (kept key row found).1 isPolicy

/-! ## Recording -/

theorem bindings_deleteSome {κ ν : Type} [DecidableEq κ] (limit : Nat)
    (selects : κ → ν → Bool) (table : FiniteMap κ ν) :
    (FiniteMap.bindings
      (AdmissionDb.deleteSome limit selects table)).Sublist
        (FiniteMap.bindings table) := by
  have erased (entries : List (κ × ν)) (start : FiniteMap κ ν) :
      (FiniteMap.bindings (entries.foldl
        (fun table entry => table.erase entry.1) start)).Sublist
          (FiniteMap.bindings start) := by
    induction entries generalizing start with
    | nil => exact List.Sublist.refl _
    | cons entry rest ih =>
        exact (ih (start.erase entry.1)).trans
          ((List.kerase_sublist entry.1 start.entries).map _)
  exact erased _ table

theorem lookup_sweepReceipts {now : Nat} {db : AdmissionDb}
    {key : ReceiptKey} {row : ReceiptRow}
    (found : (sweepReceipts now db).receipts.lookup key = some row) :
    db.receipts.lookup key = some row := by
  rw [← FiniteMap.mem_bindings_iff] at found ⊢
  exact (bindings_deleteSome _ _ _).subset found

theorem AdmissionDb.Sound.sweep {db : AdmissionDb} (sound : db.Sound)
    (now : Nat) : (sweepReceipts now db).Sound where
  buried := sound.buried
  retained key row found := sound.retained key row (lookup_sweepReceipts found)
  expires key row found := sound.expires key row (lookup_sweepReceipts found)

section Commit

variable {plan : PreparedAdmission} {apply : AppEffect plan}

/-- The receipt of a commit. -/
def newReceipt (plan : PreparedAdmission) (disposition : Disposition)
    (storedWireHash : Option WireHash) : ReceiptRow where
  node := plan.node
  messageId := plan.messageId
  receivedWireHash := plan.receivedWireHash
  storedWireHash := storedWireHash
  disposition := disposition
  committedAt := plan.committedAt
  expiresAt :=
    if disposition.isPolicy then
      some (min (plan.committedAt + policyReceiptSeconds) clockLimit)
    else none

theorem lookup_recordReceipt {db : AdmissionDb}
    (agrees : AgreesWithPrior plan db) (disposition : Disposition)
    (storedWireHash : Option WireHash) (key : ReceiptKey) :
    (recordReceipt plan disposition storedWireHash db).receipts.lookup key =
      if key = plan.receiptKey then
        some (newReceipt plan disposition storedWireHash)
      else db.receipts.lookup key := by
  simp only [recordReceipt, FiniteMap.lookup_insert_ite]
  split
  · cases prior : db.receipts.lookup plan.receiptKey with
    | none => rfl
    | some row =>
        obtain ⟨sameId, sameWire⟩ := agrees row prior
        simp only [newReceipt, sameId, sameWire]
  · rfl

/-- Whatever the outcome, no receipt, tombstone or suppression row changes,
and no effect goes. -/
theorem Settled.frame {db settled : AdmissionDb} {disposition : Disposition}
    {stored : Option WireHash} (outcome : Settled plan apply db disposition stored settled) :
    settled.receipts = db.receipts ∧
      settled.userDeleted = db.userDeleted ∧
      settled.suppression = db.suppression ∧
      ∀ key effect, db.effects.lookup key = some effect →
        settled.effects.lookup key = some effect := by
  cases outcome with
  | userDeleted buried => exact ⟨rfl, rfl, rfl, fun _ _ found => found⟩
  | duplicate effect alive found retains =>
      exact ⟨rfl, rfl, rfl, fun _ _ found => found⟩
  | policyDiscard app alive fresh ran => exact ⟨rfl, rfl, rfl, fun _ _ found => found⟩
  | committed kind app alive fresh ran retains =>
      refine ⟨rfl, rfl, rfl, fun key effect found => ?_⟩
      rw [FiniteMap.lookup_insert_ite, if_neg ?_]
      · exact found
      · intro same
        rw [same, fresh] at found
        cases found

/-- A tombstone excludes an effect after a commit, too. -/
theorem Settled.buried {db settled : AdmissionDb}
    {disposition : Disposition} {stored : Option WireHash}
    (outcome : Settled plan apply db disposition stored settled)
    (sound : db.Sound) (key : EffectKey)
    (tomb : (settled.userDeleted.lookup key).isSome = true) :
    settled.effects.lookup key = none := by
  cases outcome with
  | userDeleted _ => exact sound.buried key tomb
  | duplicate effect alive found retains => exact sound.buried key tomb
  | policyDiscard app alive fresh ran => exact sound.buried key tomb
  | committed kind app alive fresh ran retains =>
      rw [FiniteMap.lookup_insert_ite, if_neg ?_]
      · exact sound.buried key tomb
      · intro same
        have none_there : db.userDeleted.lookup key = none := by
          rw [same]
          exact alive
        simp [none_there] at tomb

/-- A disposition that stands for an effect comes with that effect. -/
theorem Settled.standing {db settled : AdmissionDb}
    {disposition : Disposition} {stored : Option WireHash}
    (outcome : Settled plan apply db disposition stored settled)
    (standing : disposition.isPolicy = false) :
    ∃ effect, settled.effects.lookup plan.effectKey = some effect ∧
      stored = some effect.storedWireHash ∧
      settled.Retains plan.effectKey effect ∧
      settled.userDeleted.lookup plan.effectKey = none := by
  cases outcome with
  | userDeleted buried => cases standing
  | duplicate effect alive found retains => exact ⟨effect, found, rfl, retains, alive⟩
  | policyDiscard app alive fresh ran => cases standing
  | committed kind app alive fresh ran retains =>
      refine ⟨newEffect plan kind, ?_, rfl, ⟨retains.message, retains.game⟩, alive⟩
      rw [FiniteMap.lookup_insert_ite, if_pos rfl]

/-- A disposition without an effect stores nothing. -/
theorem Settled.policy {db settled : AdmissionDb}
    {disposition : Disposition} {stored : Option WireHash}
    (outcome : Settled plan apply db disposition stored settled)
    (isPolicy : disposition.isPolicy = true) : stored = none := by
  cases outcome with
  | userDeleted buried => rfl
  | duplicate effect alive found retains => cases isPolicy
  | policyDiscard app alive fresh ran => rfl
  | committed kind app alive fresh ran retains => cases isPolicy

/-- A disposition without an effect finds none. -/
theorem Settled.noEffect {db settled : AdmissionDb}
    {disposition : Disposition} {stored : Option WireHash}
    (outcome : Settled plan apply db disposition stored settled)
    (sound : db.Sound) (isPolicy : disposition.isPolicy = true) :
    db.effects.lookup plan.effectKey = none := by
  cases outcome with
  | userDeleted buried => exact sound.buried plan.effectKey buried
  | duplicate effect alive found retains => cases isPolicy
  | policyDiscard app alive fresh ran => exact fresh
  | committed kind app alive fresh ran retains => cases isPolicy

/-- The receipts after a commit. -/
theorem Recorded.receipts {before settled after : AdmissionDb} {receipt : AdmissionReceipt}
    (recorded : Recorded plan apply before receipt settled after) (key : ReceiptKey) :
    after.receipts.lookup key =
      if key = plan.receiptKey then
        some (newReceipt plan receipt.disposition receipt.storedWireHash)
      else (sweepReceipts plan.committedAt before).receipts.lookup key := by
  have same := recorded.outcome.frame.1
  have agrees : AgreesWithPrior plan settled := by
    intro row found
    rw [same] at found
    exact recorded.agrees row found
  rw [recorded.reached, ← same]
  exact lookup_recordReceipt agrees _ _ key

theorem AdmissionDb.Sound.record {before settled after : AdmissionDb}
    {receipt : AdmissionReceipt} (sound : before.Sound)
    (recorded : Recorded plan apply before receipt settled after) :
    after.Sound := by
  have swept := sound.sweep plan.committedAt
  have effects : after.effects = settled.effects := by
    rw [recorded.reached]
    rfl
  have userDeleted : after.userDeleted = settled.userDeleted := by
    rw [recorded.reached]
    rfl
  refine ⟨fun key tomb => ?_, fun key row found standing => ?_,
    fun key row found isPolicy => ?_⟩
  · rw [effects]
    rw [userDeleted] at tomb
    exact recorded.outcome.buried swept key tomb
  · rw [recorded.receipts] at found
    rw [effects]
    split at found
    · rename_i isNew
      cases found
      obtain ⟨effect, held, stored, -⟩ := recorded.outcome.standing standing
      refine ⟨if_neg (Bool.eq_false_iff.mp standing), effect, ?_, stored⟩
      rw [isNew]
      exact held
    · obtain ⟨never, effect, held, stored⟩ :=
        swept.retained key row found standing
      exact ⟨never, effect, recorded.outcome.frame.2.2.2 _ _ held, stored⟩
  · rw [recorded.receipts] at found
    split at found
    · cases found
      exact ⟨recorded.outcome.policy isPolicy, if_pos isPolicy⟩
    · exact swept.expires key row found isPolicy

end Commit

/-! ## Runs -/

namespace AdmissionDb

/-- The ledger after an operation. -/
def step (db : AdmissionDb) (input : AdmissionDbCall × AdmissionDbOp) :
    AdmissionDb :=
  (db.perform input.1 input.2).tables

theorem Sound.lands {before after : AdmissionDb} {op : AdmissionDbOp}
    {answer : AdmissionDbAnswer} (sound : before.Sound)
    (lands : op.Lands before answer after) : after.Sound := by
  by_cases isCommit : ∃ plan verifyRetained apply, op = .commit plan verifyRetained apply
  · obtain ⟨plan, verifyRetained, apply, same⟩ := isCommit
    subst same
    obtain ⟨receipt, settled, -, recorded⟩ := lands
    exact sound.record recorded
  · refine sound.revoke (lands.revoked fun plan verifyRetained apply same =>
      isCommit ⟨plan, verifyRetained, apply, same⟩)

theorem Sound.step {db : AdmissionDb} (sound : db.Sound)
    (input : AdmissionDbCall × AdmissionDbOp) : (db.step input).Sound := by
  rcases atomic_perform db input.1 input.2 with
    ⟨answer, -, lands, -⟩ | ⟨-, same, -⟩
  · exact sound.lands lands
  · rw [AdmissionDb.step, same]
    exact sound

theorem sound_run (app : AppTables) (inputs : List (AdmissionDbCall × AdmissionDbOp)) :
    (runFrom step (fresh app) inputs).Sound :=
  invariant_of_forall_step (fun _ input sound => sound.step input) inputs
    (sound_fresh app)

end AdmissionDb

/-! ## What receipts stand for -/

/-- The receipt may be shown to a propagation node: the effect that it stands
for is retained here.  A receipt without an effect stands for nothing. -/
def AdmissionDb.Authorises (db : AdmissionDb) (receipt : AdmissionReceipt) :
    Prop :=
  if receipt.disposition.isPolicy then receipt.storedWireHash = none
  else
    ∃ effect,
      db.effects.lookup (receipt.identity, receipt.messageId) = some effect ∧
      receipt.storedWireHash = some effect.storedWireHash ∧
      db.Retains (receipt.identity, receipt.messageId) effect ∧
      db.userDeleted.lookup (receipt.identity, receipt.messageId) = none

/-- A sound ledger has no tombstone beside an effect. -/
private theorem AdmissionDb.Sound.alive {db : AdmissionDb}
    (sound : db.Sound) {key : EffectKey} {effect : EffectRow}
    (found : db.effects.lookup key = some effect) :
    db.userDeleted.lookup key = none := by
  cases tomb : db.userDeleted.lookup key with
  | none => rfl
  | some since =>
      have gone := sound.buried key (by rw [tomb]; rfl)
      rw [gone] at found
      cases found

private theorem reports_spec {db : AdmissionDb} {identity : String}
    {now : Nat} {entry : ReceiptKey × ReceiptRow}
    (reported : reports db identity now entry = true) :
    entry.1.1 = identity ∧
      (∀ expires, entry.2.expiresAt = some expires → now < expires) ∧
      (entry.2.disposition.isPolicy = false → ∀ effect,
        db.effects.lookup (entry.1.1, entry.2.messageId) = some effect →
          db.Retains (entry.1.1, entry.2.messageId) effect) := by
  simp only [reports, Bool.and_eq_true, decide_eq_true_eq] at reported
  obtain ⟨⟨⟨isOwn, lasts⟩, kept⟩, game⟩ := reported
  refine ⟨isOwn, ?_, ?_⟩
  · intro expires isExpiry
    rw [isExpiry] at lasts
    simpa using lasts
  · intro standing effect found
    rw [standing, found] at kept
    rw [found] at game
    simp only [Bool.false_or, Option.any_some, Bool.and_eq_true,
      Bool.or_eq_true, decide_eq_true_eq] at kept
    simp only [Option.all_some, Bool.or_eq_true, decide_eq_true_eq] at game
    refine ⟨fun isMessage => ?_, fun isGame => ?_⟩
    · rcases kept.2 with other | there
      · exact (other isMessage).elim
      · exact there
    · rcases game with other | retained
      · exact (other isGame).elim
      · exact (Option.any_eq_true _ _).mp retained

/-- What is reported may be shown, and has not expired. -/
theorem authorises_of_reported {db : AdmissionDb} (sound : db.Sound)
    {identity : String} {now : Nat} {receipt : AdmissionReceipt}
    (reported : receipt ∈ receipts db identity now) :
    db.Authorises receipt ∧ (receipt.disposition.isPolicy = true →
      now < min (receipt.committedAt + policyReceiptSeconds)
        clockLimit) := by
  obtain ⟨entry, member, isReceipt⟩ := List.mem_map.mp reported
  obtain ⟨bound, passes⟩ := List.mem_filter.mp member
  have found := (FiniteMap.mem_bindings_iff entry.1 entry.2 _).mp bound
  obtain ⟨isOwn, lasts, retains⟩ := reports_spec passes
  subst isReceipt
  rw [AdmissionDb.Authorises]
  cases isPolicy : entry.2.disposition.isPolicy with
  | true =>
      obtain ⟨stores, expires⟩ := sound.expires _ _ found isPolicy
      exact ⟨stores, fun _ => lasts _ expires⟩
  | false =>
      obtain ⟨-, effect, held, stored⟩ :=
        sound.retained _ _ found isPolicy
      subst isOwn
      refine ⟨⟨effect, held, stored, retains isPolicy effect held,
        sound.alive held⟩, fun never => ?_⟩
      simp at never

/-- What a commit answers may be shown. -/
theorem authorises_of_recorded {plan : PreparedAdmission}
    {apply : AppEffect plan} {before settled after : AdmissionDb} {receipt : AdmissionReceipt}
    (recorded : Recorded plan apply before receipt settled after) :
    after.Authorises receipt := by
  rw [AdmissionDb.Authorises]
  split
  · rename_i isPolicy
    exact recorded.outcome.policy isPolicy
  · rename_i standing
    obtain ⟨effect, held, stored, retains, alive⟩ :=
      recorded.outcome.standing (Bool.eq_false_iff.mpr standing)
    rw [recorded.identity, recorded.messageId, recorded.reached]
    exact ⟨effect, held, stored, ⟨retains.message, retains.game⟩, alive⟩

/-- In every ledger that operations reach, what is reported or answered may be
shown to a propagation node; a receipt without an effect stores no bytes and
expires; and a deletion leaves no receipt of what it deletes. -/
theorem receiptAuthority_run (app : AppTables)
    (inputs : List (AdmissionDbCall × AdmissionDbOp)) :
    let db := runFrom AdmissionDb.step (AdmissionDb.fresh app) inputs
    (∀ identity now receipt, receipt ∈ receipts db identity now →
      db.Authorises receipt ∧ (receipt.disposition.isPolicy = true →
        now < min (receipt.committedAt + policyReceiptSeconds) clockLimit)) ∧
    (∀ call plan verifyRetained apply receipt,
      (db.perform call (.commit plan verifyRetained apply)).result =
          .ok (.receipt receipt) →
        (db.perform call (.commit plan verifyRetained apply)).tables.Authorises receipt) ∧
    (∀ key row, db.receipts.lookup key = some row →
      row.disposition.isPolicy = true →
        row.storedWireHash = none ∧
          row.expiresAt = some (min (row.committedAt + policyReceiptSeconds) clockLimit)) ∧
    ∀ call op, (db.perform call op).landed.isSome = true →
      ∀ key ∈ op.deletes db, ∀ transientId row,
        (db.perform call op).tables.receipts.lookup (key.1, transientId) =
            some row →
          row.messageId ≠ key.2 := by
  intro db
  have sound : db.Sound :=
    AdmissionDb.sound_run app inputs
  refine ⟨fun identity now receipt reported =>
      authorises_of_reported sound reported, ?_, sound.expires, ?_⟩
  · intro call plan verifyRetained apply receipt answered
    rcases AdmissionDb.atomic_perform db call
        (.commit plan verifyRetained apply) with
      ⟨answer, -, ⟨recorded, settled, isReceipt, isRecorded⟩,
        worked | ⟨reason, unsure⟩⟩ | ⟨-, -, failure, failed⟩
    · rw [worked, isReceipt] at answered
      cases answered
      exact authorises_of_recorded isRecorded
    · rw [unsure] at answered
      cases answered
    · rw [failed] at answered
      cases answered
  · intro call op landed key isDeleted transientId row found isMessage
    have noCommit (plan : PreparedAdmission) (verifyRetained : VerifyRetained)
        (apply : AppEffect plan) :
        op ≠ .commit plan verifyRetained apply := by
      intro same
      subst same
      cases isDeleted
    rcases AdmissionDb.atomic_perform db call op with
      ⟨answer, -, lands, -⟩ | ⟨never, -, -⟩
    · rw [(lands.revoked noCommit).receipts] at found
      have spared := Option.filter_eq_some_iff.mp found
      rw [isMessage] at spared
      simp [isDeleted] at spared
    · rw [never] at landed
      cases landed

/-! ## Marks -/

/-- What a run did to a message. -/
inductive Mark where
  | applied (key : EffectKey)
  | deleted (key : EffectKey)
deriving DecidableEq

/-- The effect that an operation with this answer has applied. -/
def AdmissionDbOp.applies : AdmissionDbOp → AdmissionDbAnswer → List Mark
  | .commit plan _ _, .receipt receipt =>
      if receipt.disposition = .committed then [.applied plan.effectKey]
      else []
  | _, _ => []

/-- What an operation did, if it took effect. -/
def AdmissionDbOp.marks (db : AdmissionDb) (op : AdmissionDbOp) :
    Option AdmissionDbAnswer → List Mark
  | none => []
  | some answer => op.applies answer ++ (op.deletes db).map .deleted

namespace AdmissionDb

/-- All that a run did, in order. -/
def history : AdmissionDb → List (AdmissionDbCall × AdmissionDbOp) → List Mark
  | _, [] => []
  | db, (call, op) :: rest =>
      op.marks db (db.perform call op).landed ++ history (db.step (call, op)) rest

/-- The ledger knows what was done. -/
structure Remembers (db : AdmissionDb) (past : List Mark) : Prop where
  deleted : ∀ key, (db.userDeleted.lookup key).isSome = true ↔ Mark.deleted key ∈ past
  applied : ∀ key, Mark.applied key ∈ past →
    (db.effects.lookup key).isSome = true ∨ (db.userDeleted.lookup key).isSome = true

/-- An effect comes neither after itself nor after a deletion. -/
def InOrder (earlier later : Mark) : Prop :=
  ∀ key, later = .applied key → earlier ≠ .applied key ∧ earlier ≠ .deleted key

private theorem remembers_revoked {before after : AdmissionDb}
    {doomed : List EffectKey} {past : List Mark} (remembers : before.Remembers past)
    (revoked : Revoked doomed before after) :
    after.Remembers (past ++ doomed.map .deleted) where
  deleted key := by
    rw [revoked.userDeleted, remembers.deleted]
    simp [or_comm]
  applied key wasApplied := by
    have earlier : Mark.applied key ∈ past := by
      simpa using wasApplied
    rw [revoked.effects, revoked.userDeleted]
    by_cases isDoomed : key ∈ doomed
    · exact Or.inr (Or.inl isDoomed)
    · rw [if_neg isDoomed]
      exact (remembers.applied key earlier).imp_right Or.inr

private theorem remembers_recorded {plan : PreparedAdmission}
    {apply : AppEffect plan} {before settled after : AdmissionDb}
    {receipt : AdmissionReceipt} {past : List Mark} (remembers : before.Remembers past)
    (recorded : Recorded plan apply before receipt settled after) :
    after.Remembers (past ++
      if receipt.disposition = .committed then [.applied plan.effectKey]
      else []) := by
  have effects : after.effects = settled.effects := by
    rw [recorded.reached]
    rfl
  have userDeleted : after.userDeleted = before.userDeleted := by
    rw [recorded.reached]
    exact recorded.outcome.frame.2.1
  refine ⟨fun key => ?_, fun key wasApplied => ?_⟩
  · rw [userDeleted, remembers.deleted]
    split <;> simp
  · rw [effects, userDeleted]
    rcases List.mem_append.mp wasApplied with earlier | now
    · refine (remembers.applied key earlier).imp_left fun held => ?_
      obtain ⟨effect, found⟩ := Option.isSome_iff_exists.mp held
      rw [recorded.outcome.frame.2.2.2 key effect found]
      rfl
    · split at now
      · rename_i committed
        have isKey : key = plan.effectKey := by
          simpa using now
        obtain ⟨effect, found, -⟩ := recorded.outcome.standing (by
          rw [committed]
          rfl)
        rw [isKey, found]
        exact Or.inl rfl
      · cases now

/-- An effect that is applied was neither applied nor deleted before. -/
private theorem committed_fresh {plan : PreparedAdmission}
    {apply : AppEffect plan} {before settled after : AdmissionDb}
    {receipt : AdmissionReceipt} {past : List Mark} (remembers : before.Remembers past)
    (recorded : Recorded plan apply before receipt settled after)
    (committed : receipt.disposition = .committed) :
    Mark.applied plan.effectKey ∉ past ∧
      Mark.deleted plan.effectKey ∉ past := by
  have outcome := recorded.outcome
  rw [committed] at outcome
  generalize receipt.storedWireHash = stored at outcome
  cases outcome with
  | committed kind app alive fresh ran retains =>
      have noTomb : (before.userDeleted.lookup plan.effectKey).isSome ≠
          true := by
        have none_there : before.userDeleted.lookup plan.effectKey = none :=
          alive
        rw [none_there]
        exact Bool.false_ne_true
      constructor
      · intro earlier
        rcases remembers.applied _ earlier with held | tomb
        · have none_there : before.effects.lookup plan.effectKey = none :=
            fresh
          rw [none_there] at held
          cases held
        · exact noTomb tomb
      · intro earlier
        exact noTomb ((remembers.deleted _).mpr earlier)

/-- What one operation adds to the past. -/
private theorem remembers_step {db : AdmissionDb} {past : List Mark}
    (remembers : db.Remembers past) (call : AdmissionDbCall) (op : AdmissionDbOp) :
    (db.step (call, op)).Remembers
        (past ++ op.marks db (db.perform call op).landed) ∧
      (past.Pairwise InOrder →
        (past ++ op.marks db (db.perform call op).landed).Pairwise
          InOrder) := by
  rcases atomic_perform db call op with
    ⟨answer, landed, lands, -⟩ | ⟨landed, same, -⟩
  · rw [landed]
    by_cases isCommit : ∃ plan verifyRetained apply, op = .commit plan verifyRetained apply
    · obtain ⟨plan, verifyRetained, apply, same⟩ := isCommit
      subst same
      obtain ⟨receipt, settled, isReceipt, recorded⟩ := lands
      subst isReceipt
      have marks : AdmissionDbOp.marks db
          (.commit plan verifyRetained apply) (some (.receipt receipt)) =
          if receipt.disposition = .committed then
            [.applied plan.effectKey]
          else [] :=
        List.append_nil _
      rw [marks]
      refine ⟨remembers_recorded remembers recorded, fun ordered => ?_⟩
      split
      · rename_i committed
        obtain ⟨notApplied, notDeleted⟩ :=
          committed_fresh remembers recorded committed
        rw [List.pairwise_append]
        refine ⟨ordered, List.pairwise_singleton _ _, ?_⟩
        intro earlier member later isLater key isKey
        have sameKey : Mark.applied plan.effectKey = .applied key := by
          rw [← isKey]
          exact (List.mem_singleton.mp isLater).symm
        cases sameKey
        constructor
        · intro same
          exact notApplied (same ▸ member)
        · intro same
          exact notDeleted (same ▸ member)
      · rw [List.append_nil]
        exact ordered
    · have noCommit (plan : PreparedAdmission)
          (verifyRetained : VerifyRetained) (apply : AppEffect plan) :
          op ≠ .commit plan verifyRetained apply :=
        fun same => isCommit ⟨plan, verifyRetained, apply, same⟩
      have marks : op.marks db (some answer) =
          (op.deletes db).map .deleted := by
        cases op with
        | commit plan verifyRetained apply =>
            exact (noCommit plan verifyRetained apply rfl).elim
        | _ => rfl
      rw [marks]
      refine ⟨remembers_revoked remembers (lands.revoked noCommit), fun ordered => ?_⟩
      have never (earlier : Mark) (key : EffectKey) :
          InOrder earlier (.deleted key) := by
        intro other isKey
        cases isKey
      rw [List.pairwise_append, List.pairwise_map]
      refine ⟨ordered, List.pairwise_of_forall fun first second =>
        never _ second, ?_⟩
      intro earlier _ later member
      obtain ⟨key, -, isDeleted⟩ := List.mem_map.mp member
      subst isDeleted
      exact never earlier key
  · rw [landed, AdmissionDb.step, same]
    refine ⟨?_, fun ordered => ?_⟩
    · rw [AdmissionDbOp.marks, List.append_nil]
      exact remembers
    · rw [AdmissionDbOp.marks, List.append_nil]
      exact ordered

/-- A run adds its history to the past, and keeps the order. -/
theorem remembers_run {db : AdmissionDb} {past : List Mark}
    (remembers : db.Remembers past) (inputs : List (AdmissionDbCall × AdmissionDbOp)) :
    (runFrom step db inputs).Remembers (past ++ db.history inputs) ∧
      (past.Pairwise InOrder →
        (past ++ db.history inputs).Pairwise InOrder) := by
  induction inputs generalizing db past with
  | nil =>
      rw [history, List.append_nil]
      exact ⟨remembers, fun ordered => ordered⟩
  | cons input rest ih =>
      obtain ⟨call, op⟩ := input
      obtain ⟨stepRemembers, stepOrdered⟩ :=
        remembers_step remembers call op
      obtain ⟨runRemembers, runOrdered⟩ := ih stepRemembers
      rw [history, ← List.append_assoc]
      exact ⟨runRemembers, fun ordered => runOrdered (stepOrdered ordered)⟩

private theorem remembers_fresh (app : AppTables) :
    (fresh app).Remembers [] where
  deleted _ := by
    simp [fresh]
  applied _ wasApplied := nomatch wasApplied

end AdmissionDb

/-! ## Later downloads -/

/-- A commit that finds a tombstone or an effect applies nothing. -/
private theorem Settled.again {plan : PreparedAdmission}
    {apply : AppEffect plan} {db settled : AdmissionDb}
    {disposition : Disposition} {stored : Option WireHash}
    (outcome : Settled plan apply db disposition stored settled)
    (known : (db.effects.lookup plan.effectKey).isSome = true ∨
      (db.userDeleted.lookup plan.effectKey).isSome = true) :
    settled = db ∧ disposition =
      if (db.userDeleted.lookup plan.effectKey).isSome then .userDeleted
      else .duplicate := by
  cases outcome with
  | userDeleted buried => exact ⟨rfl, (if_pos buried).symm⟩
  | duplicate effect alive found retains => exact ⟨rfl, by simp [alive]⟩
  | policyDiscard app alive fresh ran => simp [alive, fresh] at known
  | committed kind app alive fresh ran retains => simp [alive, fresh] at known

/-- Why a download of a message with a tombstone or an effect is refused. -/
def AdmissionDb.RefusesAgain (db : AdmissionDb) (plan : PreparedAdmission)
    (verifyRetained : VerifyRetained) (failure : AdmissionDbError) : Prop :=
  let swept := sweepReceipts plan.committedAt db
  (¬ AgreesWithPrior plan swept ∧ failure = .missingEffect) ∨
  (∃ effect, db.userDeleted.lookup plan.effectKey = none ∧
    db.effects.lookup plan.effectKey = some effect ∧
    (verifyRetained effect.archivePath effect.storedWireHash
        effect.mediaManifest = .error failure ∨
      ¬ db.Retains plan.effectKey effect ∧ failure = .missingEffect)) ∨
  ((db.userDeleted.lookup plan.effectKey).isSome = true ∧
    hasPolicyRoom plan swept = false ∧ failure = .ledgerFull)

private theorem Refuses.again {plan : PreparedAdmission}
    {verifyRetained : VerifyRetained} {apply : AppEffect plan}
    {db : AdmissionDb} {failure : AdmissionDbError} (refuses : Refuses plan verifyRetained apply
      (sweepReceipts plan.committedAt db) failure)
    (known : (db.effects.lookup plan.effectKey).isSome = true ∨
      (db.userDeleted.lookup plan.effectKey).isSome = true) :
    db.RefusesAgain plan verifyRetained failure := by
  cases refuses with
  | disagrees differs => exact Or.inl ⟨differs, rfl⟩
  | unverified effect failure alive found fails =>
      exact Or.inr (Or.inl ⟨effect, alive, found, Or.inl fails⟩)
  | lost effect alive found misses =>
      refine Or.inr (Or.inl ⟨effect, alive, found, Or.inr ⟨?_, rfl⟩⟩)
      intro retains
      exact misses ⟨retains.message, retains.game⟩
  | effectFails failure alive fresh fails =>
      have alive : db.userDeleted.lookup plan.effectKey = none := alive
      have fresh : db.effects.lookup plan.effectKey = none := fresh
      simp [alive, fresh] at known
  | unfit kind app alive fresh ran misses =>
      have alive : db.userDeleted.lookup plan.effectKey = none := alive
      have fresh : db.effects.lookup plan.effectKey = none := fresh
      simp [alive, fresh] at known
  | full disposition stored settled outcome isPolicy noRoom =>
      obtain ⟨same, isDisposition⟩ := outcome.again known
      subst same
      refine Or.inr (Or.inr ⟨?_, noRoom, rfl⟩)
      by_contra notBuried
      have isDuplicate : disposition = .duplicate := by
        rw [isDisposition]
        exact if_neg notBuried
      rw [isDuplicate] at isPolicy
      cases isPolicy

/-- The database works: nothing fails of itself. -/
structure AdmissionDbCall.Healthy (call : AdmissionDbCall) : Prop where
  connects : call.circumstances.connection = none
  fares : ∀ index, call.circumstances.fares index = none
  commits : call.circumstances.commit = .done

private theorem refused_again {db : AdmissionDb} (call : AdmissionDbCall)
    (plan : PreparedAdmission) (verifyRetained : VerifyRetained) (apply : AppEffect plan)
    (known : (db.effects.lookup plan.effectKey).isSome = true ∨
      (db.userDeleted.lookup plan.effectKey).isSome = true)
    (healthy : call.Healthy) {failure : AdmissionDbError} (failed : (db.perform call
      (.commit plan verifyRetained apply)).result = .error failure) :
    db.RefusesAgain plan verifyRetained failure := by
  have whole : Tx.Settles (fun _ => False) (fun start => start = db)
      (do
        let receipt ← commitProgram plan verifyRetained apply
        pure (AdmissionDbAnswer.receipt receipt))
      (fun _ _ => True)
      (Refuses plan verifyRetained apply (sweepReceipts plan.committedAt db)) :=
    (settles_commitProgram plan verifyRetained apply db).bind fun _ =>
      Tx.settles_pure fun _ _ => trivial
  rcases Tx.immediate_healthy whole (.commitUncertain call.reason)
      healthy.connects healthy.fares healthy.commits rfl with
    ⟨answer, worked⟩ | ⟨reason, stopped, refuses⟩
  · rw [AdmissionDb.perform, AdmissionDb.transact, worked] at failed
    cases failed
  · rw [AdmissionDb.perform, AdmissionDb.transact, stopped] at failed
    cases failed
    exact refuses.again known

/-- What a run and a later download of a message have to do with each other:
the effect of the download is not applied again, and the answer tells that it
was applied or deleted. -/
structure AdmissionDb.Answered (db : AdmissionDb) (call : AdmissionDbCall)
    (plan : PreparedAdmission) (verifyRetained : VerifyRetained)
    (wasDeleted : Prop) [Decidable wasDeleted] (performed : AdmissionDb.Performed) : Prop where
  receipts : ∀ answer, performed.result = .ok answer →
    ∃ receipt, answer = .receipt receipt ∧
      receipt.disposition =
        if wasDeleted then .userDeleted else .duplicate
  app : performed.tables.app = db.app
  effects : performed.tables.effects = db.effects
  fails : ∀ failure, performed.result = .error failure →
    (∃ reason, failure = .commitUncertain reason) ∨ performed.tables = db
  refused : call.Healthy → ∀ failure, performed.result = .error failure →
    db.RefusesAgain plan verifyRetained failure

private theorem answered_again {db : AdmissionDb}
    (call : AdmissionDbCall) (plan : PreparedAdmission)
    (verifyRetained : VerifyRetained) (apply : AppEffect plan)
    (wasDeleted : Prop) [Decidable wasDeleted]
    (isDeleted : (db.userDeleted.lookup plan.effectKey).isSome = true ↔ wasDeleted)
    (known : (db.effects.lookup plan.effectKey).isSome = true ∨
      (db.userDeleted.lookup plan.effectKey).isSome = true) :
    db.Answered call plan verifyRetained wasDeleted
      (db.perform call (.commit plan verifyRetained apply)) := by
  have unchanged {receipt : AdmissionReceipt} {settled after : AdmissionDb}
      (recorded : Recorded plan apply db receipt settled after) :
      after.app = db.app ∧ after.effects = db.effects ∧
        receipt.disposition =
          if wasDeleted then .userDeleted else .duplicate := by
    obtain ⟨same, isDisposition⟩ := recorded.outcome.again known
    rw [recorded.reached, same, isDisposition]
    refine ⟨rfl, rfl, ?_⟩
    exact if_congr isDeleted rfl rfl
  rcases AdmissionDb.atomic_perform db call
      (.commit plan verifyRetained apply) with
    ⟨answer, -, ⟨receipt, settled, isReceipt, recorded⟩, result⟩ | ⟨-, same, failure, failed⟩
  · obtain ⟨sameApp, sameEffects, isDisposition⟩ := unchanged recorded
    refine ⟨fun other answered => ?_, sameApp, sameEffects,
      fun failure failed => ?_, fun healthy failure failed => ?_⟩
    · rcases result with worked | ⟨reason, unsure⟩
      · rw [worked] at answered
        cases answered
        exact ⟨receipt, isReceipt, isDisposition⟩
      · rw [unsure] at answered
        cases answered
    · rcases result with worked | ⟨reason, unsure⟩
      · rw [worked] at failed
        cases failed
      · rw [unsure] at failed
        cases failed
        exact Or.inl ⟨reason, rfl⟩
    · exact refused_again call plan verifyRetained apply known healthy failed
  · refine ⟨fun other answered => ?_, by rw [same], by rw [same],
      fun _ _ => Or.inr same, fun healthy failure failed => ?_⟩
    · rw [failed] at answered
      cases answered
    · exact refused_again call plan verifyRetained apply known healthy failed

/-- Over every run, the effect of a message is applied at most once, and never
after the message was deleted.  A later download applies nothing: it is
answered as deleted if the message was deleted and as a duplicate otherwise,
or it fails and nothing changes; a database that works refuses it only if the
transient id is on record for another message or other bytes, if the retained
copy no longer passes its check, or if there is no room for the receipt of a
deleted message. -/
theorem exactlyOnce_run (app : AppTables) (inputs : List (AdmissionDbCall × AdmissionDbOp)) :
    let past := (AdmissionDb.fresh app).history inputs
    let db := runFrom AdmissionDb.step (AdmissionDb.fresh app) inputs
    past.Pairwise AdmissionDb.InOrder ∧
      ∀ call plan verifyRetained apply,
        Mark.applied plan.effectKey ∈ past ∨
            Mark.deleted plan.effectKey ∈ past →
          db.Answered call plan verifyRetained
            (Mark.deleted plan.effectKey ∈ past)
            (db.perform call (.commit plan verifyRetained apply)) := by
  intro past db
  obtain ⟨remembers, ordered⟩ :=
    AdmissionDb.remembers_run (AdmissionDb.remembers_fresh app) inputs
  rw [List.nil_append] at remembers ordered
  refine ⟨ordered List.Pairwise.nil, ?_⟩
  intro call plan verifyRetained apply known
  refine answered_again call plan verifyRetained apply _ (remembers.deleted plan.effectKey) ?_
  rcases known with wasApplied | wasDeleted
  · exact remembers.applied plan.effectKey wasApplied
  · exact Or.inr ((remembers.deleted plan.effectKey).mpr wasDeleted)

/-! A transient id that comes again with other bytes is refused. -/

private def noTables : AppTables where
  messages := ∅
  reactions := []
  appSessions := ∅
  appActions := []
  hiddenConversations := []
  conversationThreads := []
  blockedContacts := []

private def downloadOf (wire : WireHash) : PreparedAdmission where
  identity := "11111111111111111111111111111111"
  transientId := Bytes.replicate 32 4
  node := Bytes.replicate 16 2
  messageId := Bytes.replicate 32 3
  receivedWireHash := wire
  archivePath := "archive"
  mediaManifest := []
  gameReference := none
  committedAt := 1000
  identityHex := by decide +kernel
  archiveFits := by decide +kernel
  timeFits := by decide

private def commitOf (wire : WireHash) : AdmissionDbOp :=
  .commit (downloadOf wire) (fun _ _ _ => .ok ())
    (Projection.service.effect (downloadOf wire) "source" "destination")

private def quietCall : AdmissionDbCall where
  busy := false
  reason := ""
  circumstances :=
    { connection := none, fares := fun _ => none, commit := .done }

/-- An applied message that comes again under its transient id but with other
bytes is answered neither as a duplicate nor as deleted. -/
theorem exactlyOnce_otherBytes :
    let past := [(quietCall, commitOf (Bytes.replicate 32 5))]
    let later := downloadOf (Bytes.replicate 32 6)
    Mark.applied later.effectKey ∈
        (AdmissionDb.fresh noTables).history past ∧
      ¬ ∃ receipt,
        ((runFrom AdmissionDb.step (AdmissionDb.fresh noTables)
          past).perform quietCall
            (commitOf (Bytes.replicate 32 6))).result = .ok (.receipt receipt) ∧
        (receipt.disposition = .duplicate ∨
          receipt.disposition = .userDeleted) := by
  intro past later
  constructor
  · decide +kernel
  · rintro ⟨receipt, answered, -⟩
    have fails : (match ((runFrom AdmissionDb.step
        (AdmissionDb.fresh noTables) past).perform quietCall
          (commitOf (Bytes.replicate 32 6))).result with
        | .ok _ => false
        | .error _ => true) = true := by
      decide +kernel
    rw [answered] at fails
    cases fails

end Ratspeak
