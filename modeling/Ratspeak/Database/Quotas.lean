import Ratspeak.Database.ExactlyOnce

/-!
# All or nothing, within limits

An operation on the ledger that fails, and not for an uncertain commit, leaves
every table as it was.  Rows that expire are counted before a new one is
written, so that their numbers stay within the limits over every run.
-/

namespace Ratspeak

open Library

/-! ## Limits -/

/-- A receipt without a retained effect, which expires. -/
def isPolicyReceipt (entry : ReceiptKey × ReceiptRow) : Bool :=
  entry.2.disposition.isPolicy

def isPolicyReceiptOf (identity : String) (entry : ReceiptKey × ReceiptRow) : Bool :=
  isPolicyReceipt entry && entry.1.1 = identity

/-- The numbers of expiring receipts are within their limits. -/
structure AdmissionDb.PolicyWithin (db : AdmissionDb) : Prop where
  all : FiniteMap.count isPolicyReceipt db.receipts ≤ maxPolicyGlobal
  identity : ∀ identity,
    FiniteMap.count (isPolicyReceiptOf identity) db.receipts ≤ maxPolicyPerIdentity

def isSuppressionOf (identity : String) (entry : SuppressionKey × SuppressionRow) : Bool :=
  entry.1.1 = identity

def isSuppressionAt (identity : String) (node : NodeHash)
    (entry : SuppressionKey × SuppressionRow) : Bool :=
  entry.1.1 = identity && entry.1.2.1 = node

/-- The numbers of suppression rows are within their limits. -/
structure AdmissionDb.SuppressionWithin (db : AdmissionDb) : Prop where
  all : FiniteMap.count (fun _ => true) db.suppression ≤
    maxSuppressionGlobal
  identity : ∀ identity,
    FiniteMap.count (isSuppressionOf identity) db.suppression ≤ maxSuppressionPerIdentity
  node : ∀ identity node,
    FiniteMap.count (isSuppressionAt identity node) db.suppression ≤ maxSuppressionPerNode

/-! ## Receipts -/

/-- Fewer receipts are within the limits, too. -/
theorem AdmissionDb.PolicyWithin.mono {smaller larger : AdmissionDb}
    (within : larger.PolicyWithin) (less : ∀ key row, smaller.receipts.lookup key = some row →
      larger.receipts.lookup key = some row) : smaller.PolicyWithin where
  all := (FiniteMap.count_mono _ less).trans within.all
  identity identity :=
    (FiniteMap.count_mono _ less).trans (within.identity identity)

private theorem policyCounts_eq (db : AdmissionDb) (identity : String) :
    policyCounts db identity =
      (FiniteMap.count isPolicyReceipt db.receipts,
        FiniteMap.count (isPolicyReceiptOf identity) db.receipts) := by
  rw [policyCounts, FiniteMap.count, FiniteMap.count, List.countP_filter,
    ← List.countP_eq_length_filter]
  have swapped : (fun entry : ReceiptKey × ReceiptRow =>
      decide (entry.1.1 = identity) && entry.2.disposition.isPolicy) =
      isPolicyReceiptOf identity := by
    funext entry
    exact Bool.and_comm _ _
  rw [swapped]
  rfl

section Commit

variable {plan : PreparedAdmission} {apply : AppEffect plan}

/-- An expiring receipt takes the place of an expiring one, or there is room
for it. -/
private theorem room_of_recorded {before settled after : AdmissionDb}
    {receipt : AdmissionReceipt} (sound : before.Sound)
    (recorded : Recorded plan apply before receipt settled after)
    (isPolicy : receipt.disposition.isPolicy = true) :
    (∃ prior, settled.receipts.lookup plan.receiptKey = some prior ∧
      prior.disposition.isPolicy = true) ∨
    (FiniteMap.count isPolicyReceipt settled.receipts < maxPolicyGlobal ∧
      FiniteMap.count (isPolicyReceiptOf plan.identity) settled.receipts <
        maxPolicyPerIdentity) := by
  have room := recorded.room isPolicy
  rw [hasPolicyRoom, policyCounts_eq] at room
  simp only [Bool.or_eq_true, Bool.and_eq_true, decide_eq_true_eq] at room
  refine room.imp_left fun there => ?_
  obtain ⟨prior, found⟩ := Option.isSome_iff_exists.mp there
  refine ⟨prior, found, ?_⟩
  by_contra standing
  have swept := sound.sweep plan.committedAt
  rw [recorded.outcome.frame.1] at found
  obtain ⟨-, effect, held, -⟩ := swept.retained plan.receiptKey prior found
    (Bool.eq_false_iff.mpr standing)
  rw [(recorded.agrees prior found).1] at held
  have same : (plan.receiptKey.1, plan.messageId) = plan.effectKey :=
    rfl
  rw [same, recorded.outcome.noEffect swept isPolicy] at held
  cases held

theorem AdmissionDb.PolicyWithin.record
    {before settled after : AdmissionDb} {receipt : AdmissionReceipt}
    (within : before.PolicyWithin) (sound : before.Sound)
    (recorded : Recorded plan apply before receipt settled after) :
    after.PolicyWithin := by
  have fewer : settled.PolicyWithin := by
    apply within.mono
    intro key row found
    rw [recorded.outcome.frame.1] at found
    exact lookup_sweepReceipts found
  -- The new receipt, as an insertion into the receipts before it.
  let row := newReceipt plan receipt.disposition receipt.storedWireHash
  have inserted (key : ReceiptKey) : after.receipts.lookup key =
      (settled.receipts.insert plan.receiptKey row).lookup key := by
    rw [recorded.receipts, FiniteMap.lookup_insert_ite, recorded.outcome.frame.1]
  have room (counted : isPolicyReceipt (plan.receiptKey, row) = true) :=
    room_of_recorded sound recorded counted
  refine ⟨?_, fun identity => ?_⟩
  · rw [FiniteMap.count_congr _ inserted]
    apply FiniteMap.count_insert_within _ _ _ fewer.all
    intro counted
    exact (room counted).imp (fun known => known) (fun ample => ample.1)
  · rw [FiniteMap.count_congr _ inserted]
    apply FiniteMap.count_insert_within _ _ _ (fewer.identity identity)
    intro counted
    rw [isPolicyReceiptOf, Bool.and_eq_true, decide_eq_true_eq] at counted
    obtain ⟨isPolicy, isOwn⟩ := counted
    have isOwn : plan.identity = identity :=
      isOwn
    subst isOwn
    refine (room isPolicy).imp ?_ (fun ample => ample.2)
    intro ⟨prior, found, wasPolicy⟩
    refine ⟨prior, found, ?_⟩
    rw [isPolicyReceiptOf, Bool.and_eq_true, decide_eq_true_eq]
    exact ⟨wasPolicy, rfl⟩

end Commit

/-! ## Suppression rows -/

theorem AdmissionDb.SuppressionWithin.mono {smaller larger : AdmissionDb}
    (within : larger.SuppressionWithin)
    (less : ∀ key row, smaller.suppression.lookup key = some row →
      larger.suppression.lookup key = some row) :
    smaller.SuppressionWithin where
  all := (FiniteMap.count_mono _ less).trans within.all
  identity identity :=
    (FiniteMap.count_mono _ less).trans (within.identity identity)
  node identity node :=
    (FiniteMap.count_mono _ less).trans (within.node identity node)

private theorem suppressionCounts_eq (db : AdmissionDb) (row : SuppressionRow) :
    suppressionCounts db row =
      (FiniteMap.count (fun _ => true) db.suppression,
        FiniteMap.count (isSuppressionOf row.identity) db.suppression,
        FiniteMap.count (isSuppressionAt row.identity row.node)
          db.suppression) := by
  rw [suppressionCounts, FiniteMap.count, List.countP_true]
  rfl

/-- A row is written over one with its key, or where there is room. -/
private theorem suppressionWithin_write {db : AdmissionDb}
    (within : db.SuppressionWithin) (row : SuppressionRow)
    (room : hasSuppressionRoom row db = true) :
    ({ db with suppression := db.suppression.insert row.key row } :
      AdmissionDb).SuppressionWithin := by
  rw [hasSuppressionRoom, suppressionCounts_eq] at room
  simp only [Bool.or_eq_true, Bool.and_eq_true, decide_eq_true_eq] at room
  -- A test of the key is passed by the row that was there, too.
  have known (counts : SuppressionKey × SuppressionRow → Bool)
      (byKey : ∀ key first second, counts (key, first) = counts (key, second))
      (counted : counts (row.key, row) = true)
      (there : (db.suppression.lookup row.key).isSome = true) :
      ∃ old, db.suppression.lookup row.key = some old ∧
        counts (row.key, old) = true := by
    obtain ⟨old, found⟩ := Option.isSome_iff_exists.mp there
    exact ⟨old, found, byKey _ old row ▸ counted⟩
  refine ⟨?_, fun identity => ?_, fun identity node => ?_⟩
  · apply FiniteMap.count_insert_within _ _ _ within.all
    intro counted
    exact room.imp (known (fun _ => true) (fun _ _ _ => rfl) counted)
      (fun ample => ample.1.1)
  · apply FiniteMap.count_insert_within _ _ _ (within.identity identity)
    intro counted
    have isOwn : row.identity = identity :=
      of_decide_eq_true counted
    subst isOwn
    exact room.imp (known _ (fun _ _ _ => rfl) counted)
      (fun ample => ample.1.2)
  · apply FiniteMap.count_insert_within _ _ _ (within.node identity node)
    intro counted
    have isOwn : row.identity = identity ∧ row.node = node := by
      rw [isSuppressionAt, Bool.and_eq_true, decide_eq_true_eq,
        decide_eq_true_eq] at counted
      exact counted
    obtain ⟨sameIdentity, sameNode⟩ := isOwn
    subst sameIdentity
    subst sameNode
    exact room.imp (known _ (fun _ _ _ => rfl) counted)
      (fun ample => ample.2)

theorem Suppresses.within {before after : AdmissionDb} (suppresses : Suppresses before after)
    (within : before.SuppressionWithin) : after.SuppressionWithin := by
  induction suppresses with
  | start => exact within
  | sweep now earlier ih =>
      apply ih.mono
      intro key row found
      rw [← FiniteMap.mem_bindings_iff] at found ⊢
      exact (bindings_deleteSome _ _ _).subset found
  | remove key earlier ih =>
      apply ih.mono
      intro other row found
      rw [FiniteMap.lookup_erase_ite] at found
      split at found
      · cases found
      · exact found
  | write row room earlier ih => exact suppressionWithin_write ih row room

/-! ## Operations -/

/-- Only a batch of suppression rows adds any. -/
theorem AdmissionDbOp.Lands.suppression {before after : AdmissionDb}
    {op : AdmissionDbOp} {answer : AdmissionDbAnswer} (lands : op.Lands before answer after)
    (noBatch : ∀ rows remove now, op ≠ .writeSuppression rows remove now)
    {key : SuppressionKey} {row : SuppressionRow}
    (found : after.suppression.lookup key = some row) :
    before.suppression.lookup key = some row := by
  have unchanged (same : after.suppression = before.suppression) :
      before.suppression.lookup key = some row := by
    rw [same] at found
    exact found
  cases op with
  | commit plan verifyRetained apply =>
      obtain ⟨receipt, settled, -, recorded⟩ := lands
      rw [recorded.reached, clearSuppressed, FiniteMap.lookup_retain,
        Option.filter_eq_some_iff] at found
      have kept := found.1
      rw [recordReceipt, recorded.outcome.frame.2.2.1] at kept
      exact kept
  | writeSuppression rows remove now => exact (noBatch rows remove now rfl).elim
  | deleteMessages identity peer now =>
      obtain ⟨_, _, _, -, -, erased⟩ := lands
      exact unchanged erased.purged.suppression
  | deleteThread identity peer thread now =>
      obtain ⟨_, _, _, -, -, erased⟩ := lands
      exact unchanged erased.purged.suppression
  | deleteSelected identity peer ids now =>
      obtain ⟨_, _, _, -, -, erased⟩ := lands
      exact unchanged erased.purged.suppression
  | deleteGameSession identity session now =>
      have ends := lands.2
      split at ends
      · exact unchanged ends.suppression
      · rw [ends] at found
        exact found
  | elsewhere change =>
      rw [lands.2] at found
      exact found

private theorem suppression_lands {before after : AdmissionDb}
    {op : AdmissionDbOp} {answer : AdmissionDbAnswer} (lands : op.Lands before answer after)
    (within : before.SuppressionWithin) : after.SuppressionWithin := by
  by_cases isBatch : ∃ rows remove now, op = .writeSuppression rows remove now
  · obtain ⟨rows, remove, now, same⟩ := isBatch
    subst same
    exact lands.2.within within
  · exact within.mono fun key row found => lands.suppression
      (fun rows remove now same => isBatch ⟨rows, remove, now, same⟩) found

/-- Only a commit adds a receipt. -/
private theorem policy_lands {before after : AdmissionDb}
    {op : AdmissionDbOp} {answer : AdmissionDbAnswer}
    (lands : op.Lands before answer after) (sound : before.Sound)
    (within : before.PolicyWithin) : after.PolicyWithin := by
  by_cases isCommit : ∃ plan verifyRetained apply, op = .commit plan verifyRetained apply
  · obtain ⟨plan, verifyRetained, apply, same⟩ := isCommit
    subst same
    obtain ⟨receipt, settled, -, recorded⟩ := lands
    exact within.record sound recorded
  · have revoked := lands.revoked fun plan verifyRetained apply same =>
      isCommit ⟨plan, verifyRetained, apply, same⟩
    apply within.mono
    intro key row found
    rw [revoked.receipts, Option.filter_eq_some_iff] at found
    exact found.1

namespace AdmissionDb

/-- A sound ledger within its limits. -/
structure Bounded (db : AdmissionDb) : Prop where
  sound : db.Sound
  policy : db.PolicyWithin
  suppression : db.SuppressionWithin

theorem bounded_fresh (app : AppTables) : (fresh app).Bounded where
  sound := sound_fresh app
  policy := ⟨Nat.zero_le _, fun _ => Nat.zero_le _⟩
  suppression :=
    ⟨Nat.zero_le _, fun _ => Nat.zero_le _, fun _ _ => Nat.zero_le _⟩

theorem Bounded.step {db : AdmissionDb} (bounded : db.Bounded)
    (input : AdmissionDbCall × AdmissionDbOp) : (db.step input).Bounded := by
  refine ⟨bounded.sound.step input, ?_, ?_⟩
  · rcases atomic_perform db input.1 input.2 with
      ⟨answer, -, lands, -⟩ | ⟨-, same, -⟩
    · exact policy_lands lands bounded.sound bounded.policy
    · rw [AdmissionDb.step, same]
      exact bounded.policy
  · rcases atomic_perform db input.1 input.2 with
      ⟨answer, -, lands, -⟩ | ⟨-, same, -⟩
    · exact suppression_lands lands bounded.suppression
    · rw [AdmissionDb.step, same]
      exact bounded.suppression

/-- A failure that is not an uncertain commit leaves every table. -/
private theorem unchanged_of_failed (db : AdmissionDb)
    (call : AdmissionDbCall) (op : AdmissionDbOp) {failure : AdmissionDbError}
    (failed : (db.perform call op).result = .error failure)
    (certain : ∀ reason, failure ≠ .commitUncertain reason) :
    (db.perform call op).tables = db := by
  rcases atomic_perform db call op with
    ⟨answer, -, -, worked | ⟨reason, unsure⟩⟩ | ⟨-, same, -⟩
  · rw [worked] at failed
    cases failed
  · rw [unsure] at failed
    cases failed
    exact (certain reason rfl).elim
  · exact same

/-- A selection with a message that is still sending is refused. -/
private theorem refused_of_sending (db : AdmissionDb)
    (call : AdmissionDbCall) (identity peer : String) (ids : List String) (now : Nat)
    {entry : MessageKey × MessageRow} (selected : entry ∈ DeletionScope.rows
      { identity := identity
        peer := some peer
        thread := none
        ids := some ids } db.app)
    (sending : isStillSending entry.2 = true) :
    let performed := db.perform call (.deleteSelected identity peer ids now)
    (∃ failure, performed.result = .error failure) ∧
      performed.tables = db := by
  intro performed
  rcases atomic_perform db call (.deleteSelected identity peer ids now) with
    ⟨answer, -, ⟨scope, _, _, isScope, -, erased⟩, -⟩ | ⟨-, same, failed⟩
  · cases isScope
    have idle := erased.idle rfl entry selected
    rw [sending] at idle
    cases idle
  · exact ⟨failed, same⟩

/-- Every operation that fails leaves all tables as they were, unless its
commit is uncertain; a selection with one message that is still sending is
refused as a whole; and over every run the rows that expire are within their
limits. -/
theorem allOrNothing_run :
    (∀ (db : AdmissionDb) (call : AdmissionDbCall) (op : AdmissionDbOp) failure,
      (db.perform call op).result = .error failure →
        (∀ reason, failure ≠ .commitUncertain reason) → (db.perform call op).tables = db) ∧
    (∀ (db : AdmissionDb) (call : AdmissionDbCall) (identity peer : String)
      (ids : List String) (now : Nat),
      (∃ entry ∈ DeletionScope.rows
          { identity := identity
            peer := some peer
            thread := none
            ids := some ids } db.app,
        isStillSending entry.2 = true) →
      let performed :=
        db.perform call (.deleteSelected identity peer ids now)
      (∃ failure, performed.result = .error failure) ∧ performed.tables = db) ∧
    ∀ (app : AppTables) (inputs : List (AdmissionDbCall × AdmissionDbOp)),
      let db := runFrom step (fresh app) inputs
      db.PolicyWithin ∧ db.SuppressionWithin := by
  refine ⟨fun db call op failure failed certain =>
      unchanged_of_failed db call op failed certain, ?_, ?_⟩
  · intro db call identity peer ids now ⟨entry, selected, sending⟩
    exact refused_of_sending db call identity peer ids now selected sending
  · intro app inputs db
    have bounded : db.Bounded :=
      invariant_of_forall_step (fun _ input held => held.step input) inputs
        (bounded_fresh app)
    exact ⟨bounded.policy, bounded.suppression⟩

end AdmissionDb

end Ratspeak
