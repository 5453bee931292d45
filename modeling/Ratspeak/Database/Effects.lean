import Ratspeak.Database.Admission

/-!
# What admissions and deletions do

One lemma for each program says all that it can do to the ledger.  A commit
has four outcomes; a deletion purges the ledger of the messages it is about.
-/

namespace Ratspeak

open Library

/-! ## Commits -/

/-- What the effect of a message left behind is still there. -/
structure AdmissionDb.Retains (db : AdmissionDb) (key : EffectKey)
    (effect : EffectRow) : Prop where
  message : effect.effectKind = "message" →
    (db.app.messages.lookup (key.1, hexEncode key.2.val)).isSome = true
  game : effect.effectKind = "game" →
    ∃ game, effect.gameReference = some game ∧ db.app.retainsGame game = true

section Commit

variable (plan : PreparedAdmission)

/-- The outcomes of a commit: the disposition, the stored bytes, and the
ledger with the effect but without a receipt. -/
inductive Settled (apply : AppEffect plan) (db : AdmissionDb) :
    Disposition → Option WireHash → AdmissionDb → Prop where
  | userDeleted
      (buried : (db.userDeleted.lookup plan.effectKey).isSome = true) :
      Settled apply db .userDeleted none db
  | duplicate (effect : EffectRow)
      (alive : db.userDeleted.lookup plan.effectKey = none)
      (found : db.effects.lookup plan.effectKey = some effect)
      (retains : db.Retains plan.effectKey effect) :
      Settled apply db .duplicate (some effect.storedWireHash) db
  | policyDiscard (app : AppTables)
      (alive : db.userDeleted.lookup plan.effectKey = none)
      (fresh : db.effects.lookup plan.effectKey = none)
      (ran : apply.run db.app = .ok (.policyDiscard, app)) :
      Settled apply db .policyDiscard none { db with app := app }
  | committed (kind : String) (app : AppTables)
      (alive : db.userDeleted.lookup plan.effectKey = none)
      (fresh : db.effects.lookup plan.effectKey = none)
      (ran : apply.run db.app = .ok (.applied kind, app))
      (retains : AdmissionDb.Retains { db with app := app } plan.effectKey
        (newEffect plan kind)) :
      Settled apply db .committed (some plan.receivedWireHash)
        { db with
          app := app
          effects := db.effects.insert plan.effectKey (newEffect plan kind) }

/-- A receipt that is there already is about the same message and bytes. -/
def AgreesWithPrior (db : AdmissionDb) : Prop :=
  ∀ row, db.receipts.lookup plan.receiptKey = some row →
    row.messageId = plan.messageId ∧ row.receivedWireHash = plan.receivedWireHash

/-- All that a commit can do. -/
structure Recorded (apply : AppEffect plan) (before : AdmissionDb)
    (receipt : AdmissionReceipt) (settled after : AdmissionDb) : Prop where
  agrees : AgreesWithPrior plan (sweepReceipts plan.committedAt before)
  outcome : Settled plan apply (sweepReceipts plan.committedAt before)
    receipt.disposition receipt.storedWireHash settled
  room : receipt.disposition.isPolicy = true → hasPolicyRoom plan settled = true
  reached : after = clearSuppressed plan
    (recordReceipt plan receipt.disposition receipt.storedWireHash settled)
  identity : receipt.identity = plan.identity
  messageId : receipt.messageId = plan.messageId
  transientId : receipt.transientId = plan.transientId
  receivedWireHash : receipt.receivedWireHash = plan.receivedWireHash

/-- The reasons for which a commit gives up. -/
inductive Refuses (verifyRetained : VerifyRetained) (apply : AppEffect plan)
    (db : AdmissionDb) : AdmissionDbError → Prop where
  | disagrees (differs : ¬ AgreesWithPrior plan db) :
      Refuses verifyRetained apply db .missingEffect
  | unverified (effect : EffectRow) (failure : AdmissionDbError)
      (alive : db.userDeleted.lookup plan.effectKey = none)
      (found : db.effects.lookup plan.effectKey = some effect)
      (fails : verifyRetained effect.archivePath effect.storedWireHash
        effect.mediaManifest = .error failure) :
      Refuses verifyRetained apply db failure
  | lost (effect : EffectRow)
      (alive : db.userDeleted.lookup plan.effectKey = none)
      (found : db.effects.lookup plan.effectKey = some effect)
      (misses : ¬ db.Retains plan.effectKey effect) :
      Refuses verifyRetained apply db .missingEffect
  | effectFails (failure : AdmissionDbError)
      (alive : db.userDeleted.lookup plan.effectKey = none)
      (fresh : db.effects.lookup plan.effectKey = none)
      (fails : apply.run db.app = .error failure) :
      Refuses verifyRetained apply db failure
  | unfit (kind : String) (app : AppTables)
      (alive : db.userDeleted.lookup plan.effectKey = none)
      (fresh : db.effects.lookup plan.effectKey = none)
      (ran : apply.run db.app = .ok (.applied kind, app))
      (misses : kind ∉ effectKinds ∨
        ¬ AdmissionDb.Retains { db with app := app } plan.effectKey (newEffect plan kind)) :
      Refuses verifyRetained apply db .missingEffect
  | full (disposition : Disposition) (stored : Option WireHash)
      (settled : AdmissionDb)
      (outcome : Settled plan apply db disposition stored settled)
      (isPolicy : disposition.isPolicy = true)
      (noRoom : hasPolicyRoom plan settled = false) :
      Refuses verifyRetained apply db .ledgerFull

variable {faulty : AdmissionDbError → Prop}

private theorem settles_verifyGameOf (kind : String)
    (game : Option GameReference) (before : AdmissionDb) :
    Tx.Settles faulty (fun db => db = before) (verifyGameOf kind game)
      (fun _ db => db = before ∧ (kind = "game" →
        ∃ named, game = some named ∧ before.app.retainsGame named = true))
      (fun failure => failure = .missingEffect ∧ ¬ (kind = "game" →
        ∃ named, game = some named ∧
          before.app.retainsGame named = true)) := by
  rw [verifyGameOf]
  split
  · rename_i isGame
    cases game with
    | none =>
        apply Tx.settles_throw
        intro _ _
        refine Or.inr ⟨rfl, fun retained => ?_⟩
        obtain ⟨named, some, -⟩ := retained isGame
        cases some
    | some named =>
        apply Tx.settles_query_bind
        intro db same
        subst same
        apply Tx.settles_require
        · intro stops _ _
          refine Or.inr ⟨rfl, fun retained => ?_⟩
          obtain ⟨other, isNamed, found⟩ := retained isGame
          cases isNamed
          rw [stops] at found
          cases found
        · intro passes reached kept
          exact ⟨kept, fun _ => ⟨named, rfl, passes⟩⟩
  · rename_i other
    apply Tx.settles_pure
    intro db same
    exact ⟨same, fun isGame => (other isGame).elim⟩

private theorem settles_verifyMessageOf (kind : String) (before : AdmissionDb) :
    Tx.Settles faulty (fun db => db = before) (verifyMessageOf plan kind)
      (fun _ db => db = before ∧ (kind = "message" →
        (before.app.messages.lookup plan.messageKey).isSome = true))
      (fun failure => failure = .missingEffect ∧ ¬ (kind = "message" →
        (before.app.messages.lookup plan.messageKey).isSome = true)) := by
  rw [verifyMessageOf]
  split
  · rename_i isMessage
    apply Tx.settles_query_bind
    intro db same
    subst same
    apply Tx.settles_require
    · intro stops _ _
      refine Or.inr ⟨rfl, fun there => ?_⟩
      rw [there isMessage] at stops
      cases stops
    · intro passes reached kept
      exact ⟨kept, fun _ => passes⟩
  · rename_i other
    apply Tx.settles_pure
    intro db same
    exact ⟨same, fun isMessage => (other isMessage).elim⟩

private theorem settles_admitDuplicate (verifyRetained : VerifyRetained)
    (apply : AppEffect plan) {before : AdmissionDb} {effect : EffectRow}
    (alive : before.userDeleted.lookup plan.effectKey = none)
    (found : before.effects.lookup plan.effectKey = some effect) :
    Tx.Settles faulty (fun db => db = before)
      (admitDuplicate plan verifyRetained effect)
      (fun settled => Settled plan apply before settled.1 settled.2)
      (Refuses plan verifyRetained apply before) := by
  rw [admitDuplicate]
  apply Tx.settles_attempt_bind
  · intro db same failure ran
    subst same
    cases verified : verifyRetained effect.archivePath
        effect.storedWireHash effect.mediaManifest with
    | error reason =>
        rw [verified] at ran
        cases ran
        exact Or.inr (Refuses.unverified effect failure alive found verified)
    | ok _ =>
        rw [verified] at ran
        cases ran
  intro db same value reached ran
  subst same
  have unchanged : reached = db := by
    cases verified : verifyRetained effect.archivePath
        effect.storedWireHash effect.mediaManifest with
    | error failure =>
        rw [verified] at ran
        cases ran
    | ok _ =>
        rw [verified] at ran
        cases ran
        rfl
  subst unchanged
  apply ((settles_verifyGameOf _ _ reached).gives_weaken ?_).bind
  · intro _
    apply Tx.settles_of_tables
    intro db ⟨same, game⟩
    subst same
    apply ((settles_verifyMessageOf plan _ db).gives_weaken ?_).bind
    · intro _
      apply Tx.settles_pure
      intro reached ⟨same, message⟩
      subst same
      exact Settled.duplicate effect alive found ⟨message, game⟩
    · intro failure ⟨isMissing, misses⟩
      subst isMissing
      exact Refuses.lost effect alive found fun retains =>
        misses retains.message
  · intro failure ⟨isMissing, misses⟩
    subst isMissing
    exact Refuses.lost effect alive found fun retains =>
      misses retains.game

private theorem settles_admitNew (verifyRetained : VerifyRetained)
    (apply : AppEffect plan) {before : AdmissionDb}
    (alive : before.userDeleted.lookup plan.effectKey = none)
    (fresh : before.effects.lookup plan.effectKey = none) :
    Tx.Settles faulty (fun db => db = before) (admitNew plan apply)
      (fun settled => Settled plan apply before settled.1 settled.2)
      (Refuses plan verifyRetained apply before) := by
  rw [admitNew]
  apply Tx.settles_attempt_bind
  · intro db same failure ran
    subst same
    cases applied : apply.run db.app with
    | error reason =>
        rw [applied] at ran
        cases ran
        exact Or.inr (Refuses.effectFails failure alive fresh applied)
    | ok outcome =>
        rw [applied] at ran
        cases ran
  intro db same commit reached ran
  subst same
  obtain ⟨app, applied, isReached⟩ :
      ∃ app, apply.run db.app = .ok (commit, app) ∧
        reached = { db with app := app } := by
    cases applied : apply.run db.app with
    | error failure =>
        rw [applied] at ran
        cases ran
    | ok outcome =>
        rw [applied] at ran
        cases ran
        exact ⟨outcome.2, rfl, rfl⟩
  subst isReached
  cases commit with
  | policyDiscard =>
      apply Tx.settles_pure
      intro reached same
      subst same
      exact Settled.policyDiscard app alive fresh applied
  | applied kind =>
      apply Tx.settles_require_bind
      · intro unknown _ _
        exact Or.inr (Refuses.unfit kind app alive fresh applied
          (Or.inl (of_decide_eq_false unknown)))
      intro _
      apply ((settles_verifyGameOf _ _ _).gives_weaken ?_).bind
      · intro _
        apply Tx.settles_execute_bind
        intro reached ⟨same, game⟩
        subst same
        apply Tx.settles_pure
        intro reached same
        subst same
        refine Settled.committed kind app alive fresh applied ⟨?_, game⟩
        intro isMessage
        have kindIs : kind = "message" :=
          isMessage
        subst kindIs
        exact apply.saves db.app app applied
      · intro failure ⟨isMissing, misses⟩
        subst isMissing
        exact Refuses.unfit kind app alive fresh applied
          (Or.inr fun retains => misses retains.game)

private theorem settles_settle (verifyRetained : VerifyRetained)
    (apply : AppEffect plan) (before : AdmissionDb) :
    Tx.Settles faulty (fun db => db = before)
      (settle plan verifyRetained apply)
      (fun settled => Settled plan apply before settled.1 settled.2)
      (Refuses plan verifyRetained apply before) := by
  rw [settle]
  apply Tx.settles_query_bind
  intro db same
  apply Tx.settles_query_bind
  intro reached kept
  subst kept
  subst same
  cases buried : reached.userDeleted.lookup plan.effectKey with
  | some since =>
      apply Tx.settles_pure
      intro db same
      subst same
      exact Settled.userDeleted (by rw [buried]; rfl)
  | none =>
      cases existing : reached.effects.lookup plan.effectKey with
      | some effect =>
          exact settles_admitDuplicate plan verifyRetained apply buried existing
      | none => exact settles_admitNew plan verifyRetained apply buried existing

private theorem settles_checkPolicyRoom (disposition : Disposition) (before : AdmissionDb) :
    Tx.Settles faulty (fun db => db = before)
      (checkPolicyRoom plan disposition)
      (fun _ db => db = before ∧ (disposition.isPolicy = true →
        hasPolicyRoom plan before = true))
      (fun failure => failure = .ledgerFull ∧
        disposition.isPolicy = true ∧
          hasPolicyRoom plan before = false) := by
  rw [checkPolicyRoom]
  split
  · rename_i isPolicy
    apply Tx.settles_query_bind
    intro db same
    subst same
    apply Tx.settles_require
    · intro full _ _
      exact Or.inr ⟨rfl, isPolicy, full⟩
    · intro passes reached kept
      exact ⟨kept, fun _ => passes⟩
  · rename_i other
    apply Tx.settles_pure
    intro db same
    exact ⟨same, fun isPolicy => (other isPolicy).elim⟩

theorem settles_commitProgram (verifyRetained : VerifyRetained)
    (apply : AppEffect plan) (before : AdmissionDb) :
    Tx.Settles faulty (fun db => db = before)
      (commitProgram plan verifyRetained apply)
      (fun receipt after =>
        ∃ settled, Recorded plan apply before receipt settled after)
      (Refuses plan verifyRetained apply
        (sweepReceipts plan.committedAt before)) := by
  rw [commitProgram]
  apply Tx.settles_execute_bind
  intro db same
  subst same
  apply Tx.settles_query_bind
  intro swept isSwept
  subst isSwept
  have agreement : AgreesWithPrior plan
        (sweepReceipts plan.committedAt db) ↔
      (((sweepReceipts plan.committedAt db).receipts.lookup
        plan.receiptKey).all fun row =>
          row.messageId = plan.messageId &&
            row.receivedWireHash = plan.receivedWireHash) = true := by
    rw [AgreesWithPrior]
    cases (sweepReceipts plan.committedAt db).receipts.lookup plan.receiptKey <;> simp
  apply Tx.settles_require_bind
  · intro differs _ _
    refine Or.inr (Refuses.disagrees fun agrees => ?_)
    rw [agreement.mp agrees] at differs
    cases differs
  intro agrees
  apply (settles_settle plan verifyRetained apply _).bind
  intro outcome
  apply Tx.settles_of_tables
  intro settled isOutcome
  apply ((settles_checkPolicyRoom plan outcome.1 settled).gives_weaken ?_).bind
  · intro _
    apply Tx.settles_execute_bind
    intro reached ⟨same, room⟩
    subst same
    apply Tx.settles_execute_bind
    intro recorded isRecorded
    subst isRecorded
    apply Tx.settles_pure
    intro after isAfter
    exact ⟨reached, agreement.mpr agrees, isOutcome, room, isAfter, rfl, rfl, rfl, rfl⟩
  · intro failure ⟨isFull, isPolicy, noRoom⟩
    subst isFull
    exact Refuses.full outcome.1 outcome.2 settled isOutcome isPolicy noRoom

theorem keeps_commitProgram (verifyRetained : VerifyRetained)
    (apply : AppEffect plan) (before : AdmissionDb) :
    Tx.Keeps (fun db => db = before)
      (commitProgram plan verifyRetained apply)
      (fun receipt after =>
        ∃ settled, Recorded plan apply before receipt settled after) :=
  (settles_commitProgram plan verifyRetained apply before).keeps

end Commit

/-! ## Deletions -/

/-- The tables of the ledger are the same, but for the artifacts. -/
structure SameLedger (before after : AdmissionDb) : Prop where
  effects : after.effects = before.effects
  receipts : after.receipts = before.receipts
  userDeleted : after.userDeleted = before.userDeleted
  suppression : after.suppression = before.suppression

theorem SameLedger.refl (db : AdmissionDb) : SameLedger db db :=
  ⟨rfl, rfl, rfl, rfl⟩

theorem SameLedger.trans {first second third : AdmissionDb}
    (before : SameLedger first second) (after : SameLedger second third) :
    SameLedger first third :=
  ⟨after.effects.trans before.effects, after.receipts.trans before.receipts,
    after.userDeleted.trans before.userDeleted,
    after.suppression.trans before.suppression⟩

/-- Some messages were revoked: no effect and no receipt of them is left, and
each has a tombstone. -/
structure Revoked (doomed : List EffectKey) (before after : AdmissionDb) :
    Prop where
  effects : ∀ key, after.effects.lookup key =
    if key ∈ doomed then none else before.effects.lookup key
  receipts : ∀ key, after.receipts.lookup key =
    (before.receipts.lookup key).filter fun row =>
      !decide ((key.1, row.messageId) ∈ doomed)
  userDeleted : ∀ key, (after.userDeleted.lookup key).isSome = true ↔
    key ∈ doomed ∨ (before.userDeleted.lookup key).isSome = true

/-- What a deletion of some messages does to the ledger. -/
structure Purged (doomed : List EffectKey) (before after : AdmissionDb) :
    Prop extends Revoked doomed before after where
  suppression : after.suppression = before.suppression

namespace Purged

theorem of_sameLedger {before after : AdmissionDb}
    (same : SameLedger before after) : Purged [] before after where
  effects key := by
    rw [same.effects]
    simp
  receipts key := by
    rw [same.receipts]
    cases before.receipts.lookup key <;> simp [Option.filter]
  userDeleted key := by
    rw [same.userDeleted]
    simp
  suppression := same.suppression

theorem trans {first second : List EffectKey} {before middle after : AdmissionDb}
    (earlier : Purged first before middle) (later : Purged second middle after) :
    Purged (first ++ second) before after where
  effects key := by
    rw [later.effects, earlier.effects]
    by_cases inFirst : key ∈ first <;> by_cases inSecond : key ∈ second <;>
      simp [inFirst, inSecond]
  receipts key := by
    rw [later.receipts, earlier.receipts]
    cases held : before.receipts.lookup key with
    | none => rfl
    | some row =>
        by_cases inFirst : (key.1, row.messageId) ∈ first <;>
          by_cases inSecond : (key.1, row.messageId) ∈ second <;>
            simp [Option.filter, inFirst, inSecond]
  userDeleted key := by
    rw [later.userDeleted, earlier.userDeleted, List.mem_append]
    tauto
  suppression := later.suppression.trans earlier.suppression

/-- Steps that only touch other tables may follow. -/
theorem andThen {doomed : List EffectKey} {before middle after : AdmissionDb}
    (purged : Purged doomed before middle)
    (same : SameLedger middle after) : Purged doomed before after := by
  have both : Purged (doomed ++ []) before after :=
    purged.trans (of_sameLedger same)
  rwa [List.append_nil] at both

end Purged

private theorem lookup_bury (key tested : EffectKey) (now : Nat) (db : AdmissionDb) :
    ((bury key now db).userDeleted.lookup tested).isSome = true ↔
      tested = key ∨ (db.userDeleted.lookup tested).isSome = true := by
  simp only [bury]
  split
  · rename_i known
    constructor
    · intro held
      exact Or.inr held
    · rintro (same | held)
      · rw [same]
        exact known
      · exact held
  · rw [FiniteMap.lookup_insert_ite]
    by_cases same : tested = key <;> simp [same]

/-- Revoking one message purges the ledger of it. -/
private theorem purged_revoke (key : EffectKey) (now : Nat) (db : AdmissionDb) :
    Purged [key] db (dropEffect key (dropReceipts key (bury key now db)))
    where
  effects tested := by
    simp [dropEffect, dropReceipts, bury]
  receipts tested := by
    simp [dropEffect, dropReceipts, bury]
  userDeleted tested := by
    have buried := lookup_bury key tested now db
    simp only [List.mem_singleton]
    exact buried
  suppression := rfl

private theorem sameLedger_journal (kind : DeletedArtifactKind)
    (artifact : DeletedArtifact) (db : AdmissionDb) :
    SameLedger db (journal kind artifact db) := by
  rw [journal]
  split
  · exact SameLedger.refl db
  · exact ⟨rfl, rfl, rfl, rfl⟩

private theorem app_journal (kind : DeletedArtifactKind)
    (artifact : DeletedArtifact) (db : AdmissionDb) :
    (journal kind artifact db).app = db.app := by
  rw [journal]
  split <;> rfl

/-- The messages whose rows a deletion removes and that may come again. -/
def DeletionScope.doomed (scope : DeletionScope) (app : AppTables) :
    List EffectKey :=
  (scope.rows app).filterMap fun entry => downloadedKey entry.1

/-- All that the deletion of a scope can do. -/
structure Erased (scope : DeletionScope) (before after : AdmissionDb) :
    Prop where
  idle : scope.ids.isSome = true →
    ∀ entry ∈ scope.rows before.app, isStillSending entry.2 = false
  purged : Purged (scope.doomed before.app) before after

private theorem keeps_deleteRow (now : Nat) {before : AdmissionDb}
    {doomed : List EffectKey} (entry : MessageKey × MessageRow) :
    Tx.Keeps (fun db => Purged doomed before db ∧ db.app = before.app)
      (deleteRow now entry)
      (fun _ db =>
        Purged (doomed ++ (downloadedKey entry.1).toList) before db ∧
          db.app = before.app) := by
  rw [deleteRow]
  apply Tx.keeps_require_bind
  intro _
  cases downloadedKey entry.1 with
  | none =>
      apply Tx.settles_pure
      intro db held
      simpa using held
  | some key =>
      apply Tx.settles_query_bind
      intro db held
      apply Tx.keeps_require_bind
      intro _
      apply Tx.settles_execute_bind
      intro first isFirst
      subst isFirst
      apply Tx.settles_execute_bind
      intro second isSecond
      subst isSecond
      apply Tx.settles_execute_bind
      intro third isThird
      subst isThird
      apply Tx.settles_pure
      intro reached isReached
      subst isReached
      exact ⟨held.1.trans (purged_revoke key now first), held.2⟩

/-- A loop over statements that leave the ledger alone does so too. -/
private theorem keeps_forEach_sameLedger {Input : Type}
    {change : Input → AdmissionDb → AdmissionDb}
    (frame : ∀ input db, SameLedger db (change input db) ∧ (change input db).app = db.app)
    (inputs : List Input) (before : AdmissionDb) :
    Tx.Keeps (fun db => db = before)
      (Tx.forEach (fun input => Tx.execute (change input)) inputs :
        AdmissionTx (List PUnit))
      (fun _ db => SameLedger before db ∧ db.app = before.app) := by
  have each (_ : List Input) (_ : List PUnit) (input : Input) :
      Tx.Keeps
        (fun db => SameLedger before db ∧ db.app = before.app)
        (Tx.execute (change input) : AdmissionTx PUnit)
        (fun _ db => SameLedger before db ∧ db.app = before.app) := by
    apply Tx.settles_execute
    intro db held
    exact ⟨held.1.trans (frame input db).1, (frame input db).2.trans held.2⟩
  apply (Tx.settles_forEach
    (fun _ _ db => SameLedger before db ∧ db.app = before.app)
    each inputs).weaken
  · intro db same
    subst same
    exact ⟨SameLedger.refl db, rfl⟩
  · intro _ _ held
    exact held

private theorem keeps_refuseSending (scope : DeletionScope) (before : AdmissionDb) :
    Tx.Keeps (fun db => db = before) (refuseSending scope)
      (fun _ db => db = before ∧ (scope.ids.isSome = true →
        ∀ entry ∈ scope.rows before.app,
          isStillSending entry.2 = false)) := by
  rw [refuseSending]
  split
  · apply Tx.settles_query_bind
    intro db same
    apply Tx.keeps_require
    intro passes reached kept
    subst same
    refine ⟨kept, fun _ entry member => ?_⟩
    have none_sends := passes
    simp only [Bool.not_eq_eq_eq_not, Bool.not_true, List.any_eq_false] at none_sends
    exact Bool.eq_false_iff.mpr (none_sends entry member)
  · rename_i every
    apply Tx.settles_pure
    intro db same
    exact ⟨same, fun isSelection => (every isSelection).elim⟩

private theorem keeps_forgetConversations (scope : DeletionScope) (before : AdmissionDb) :
    Tx.Keeps (fun db => db = before) (forgetConversations scope)
      (fun _ db => SameLedger before db) := by
  rw [forgetConversations]
  split
  · apply Tx.settles_execute
    intro db same
    subst same
    rw [dropConversations]
    split
    · exact ⟨rfl, rfl, rfl, rfl⟩
    · exact ⟨rfl, rfl, rfl, rfl⟩
    · exact ⟨rfl, rfl, rfl, rfl⟩
  · apply Tx.settles_pure
    intro db same
    subst same
    exact SameLedger.refl db

theorem keeps_deleteScopedProgram (scope : DeletionScope) (now : Nat) (before : AdmissionDb) :
    Tx.Keeps (fun db => db = before) (deleteScopedProgram scope now)
      (fun _ after => Erased scope before after) := by
  rw [deleteScopedProgram]
  apply (keeps_refuseSending scope before).bind
  intro _
  apply Tx.settles_query_bind
  intro db ⟨same, idle⟩
  subst same
  have rows : Tx.Keeps (fun start => start = db)
      (Tx.forEach (deleteRow now) (scope.rows db.app))
      (fun _ reached => Purged (scope.doomed db.app) db reached) := by
    apply (Tx.settles_forEach
      (fun done _ reached =>
        Purged (done.filterMap fun entry => downloadedKey entry.1) db
          reached ∧ reached.app = db.app)
      (fun done _ entry => ?_) (scope.rows db.app)).weaken
    · intro reached same
      subst same
      exact ⟨Purged.of_sameLedger (SameLedger.refl reached), rfl⟩
    · intro _ reached held
      exact held.1
    · apply (keeps_deleteRow now entry).weaken
      · intro reached held
        exact held
      · intro _ reached held
        rw [List.filterMap_append]
        have last : List.filterMap
            (fun entry : MessageKey × MessageRow => downloadedKey entry.1)
            [entry] = (downloadedKey entry.1).toList := by
          cases found : downloadedKey entry.1 <;> simp [found]
        rw [last]
        exact held
  apply rows.bind
  intro archives
  apply Tx.settles_of_tables
  intro purged isPurged
  apply (keeps_forEach_sameLedger
    (fun artifact db => ⟨sameLedger_journal .media artifact db,
      app_journal .media artifact db⟩) _ purged).bind
  intro _
  apply Tx.settles_of_tables
  intro journaled isJournaled
  apply (keeps_forEach_sameLedger
    (fun artifact db => ⟨sameLedger_journal .archive artifact db,
      app_journal .archive artifact db⟩) _ journaled).bind
  intro _
  apply Tx.settles_execute_bind
  intro archived isArchived
  apply Tx.settles_execute_bind
  intro dropped isDropped
  subst isDropped
  apply (keeps_forgetConversations scope _).bind
  intro _
  apply Tx.settles_pure
  intro after isAfter
  have dropsReactions : SameLedger archived (dropReactions scope archived) :=
    ⟨rfl, rfl, rfl, rfl⟩
  have dropsRows (table : AdmissionDb) :
      SameLedger table (dropRows scope table) :=
    ⟨rfl, rfl, rfl, rfl⟩
  refine ⟨idle, isPurged.andThen ?_⟩
  exact isJournaled.1.trans (isArchived.1.trans (dropsReactions.trans
    ((dropsRows _).trans isAfter)))

/-! ## Game sessions -/

/-- The messages of a game session. -/
def gameKeys (db : AdmissionDb) (identity session : String) :
    List EffectKey :=
  (gameEffects db identity session).map Prod.fst

theorem mem_gameKeys (db : AdmissionDb) (identity session : String) (key : EffectKey) :
    key ∈ gameKeys db identity session ↔
      ∃ effect, db.effects.lookup key = some effect ∧
        effect.inSession identity session = true := by
  rw [gameKeys, gameEffects]
  constructor
  · intro member
    obtain ⟨entry, listed, isKey⟩ := List.mem_map.mp member
    obtain ⟨bound, inSession⟩ := List.mem_filter.mp listed
    subst isKey
    exact ⟨entry.2, (FiniteMap.mem_bindings_iff _ _ _).mp bound, inSession⟩
  · intro ⟨effect, found, inSession⟩
    apply List.mem_map.mpr
    refine ⟨(key, effect), List.mem_filter.mpr ⟨?_, inSession⟩, rfl⟩
    exact (FiniteMap.mem_bindings_iff _ _ _).mpr found

private theorem sameLedger_journalGame (identity session : String) (db : AdmissionDb) :
    SameLedger db (journalGame identity session db) := by
  rw [journalGame]
  generalize gameEffects db identity session = entries
  induction entries generalizing db with
  | nil => exact SameLedger.refl db
  | cons entry rest ih => exact (sameLedger_journal _ _ db).trans (ih _)

/-- Tombstones for a list of messages, and nothing else. -/
private theorem bury_all (now : Nat) (entries : List (EffectKey × EffectRow))
    (db : AdmissionDb) :
    let buried := entries.foldl (fun db entry => bury entry.1 now db) db
    (∀ key, (buried.userDeleted.lookup key).isSome = true ↔
      key ∈ entries.map Prod.fst ∨ (db.userDeleted.lookup key).isSome = true) ∧
      buried = { db with userDeleted := buried.userDeleted } := by
  induction entries generalizing db with
  | nil => simp
  | cons entry rest ih =>
      obtain ⟨tombs, rests⟩ := ih (bury entry.1 now db)
      refine ⟨fun key => ?_, ?_⟩
      · rw [List.foldl_cons, tombs, lookup_bury, List.map_cons,
          List.mem_cons]
        tauto
      · rw [List.foldl_cons, rests]
        rfl

private theorem any_inSession (identity session : String) (db : AdmissionDb) (key : EffectKey) :
    (db.effects.lookup key).any
        (fun effect => effect.inSession identity session) =
      decide (key ∈ gameKeys db identity session) := by
  have member := mem_gameKeys db identity session key
  cases found : db.effects.lookup key with
  | none =>
      have absent : key ∉ gameKeys db identity session := by
        rw [member, found]
        simp
      rw [decide_eq_false absent]
      rfl
  | some effect =>
      rw [found] at member
      cases inSession : effect.inSession identity session with
      | true =>
          rw [decide_eq_true (member.mpr ⟨effect, rfl, inSession⟩)]
          exact inSession
      | false =>
          have absent : key ∉ gameKeys db identity session := by
            rw [member]
            rintro ⟨other, same, isIn⟩
            cases same
            rw [inSession] at isIn
            cases isIn
          rw [decide_eq_false absent]
          exact inSession

/-- Deleting a game session purges the ledger of its messages. -/
private theorem purged_game (identity session : String) (now : Nat) (db : AdmissionDb) :
    Purged (gameKeys db identity session) db
      (dropGameEffects identity session
        (dropGameReceipts identity session
          (buryGame identity session now
            (journalGame identity session db)))) := by
  have same := sameLedger_journalGame identity session db
  generalize journalGame identity session db = journaled at same
  have entries : gameEffects journaled identity session =
      gameEffects db identity session := by
    rw [gameEffects, same.effects]
    rfl
  obtain ⟨tombs, rests⟩ :=
    bury_all now (gameEffects db identity session) journaled
  rw [buryGame, entries]
  generalize (gameEffects db identity session).foldl
    (fun db entry => bury entry.1 now db) journaled = buried at tombs rests
  have effects : buried.effects = db.effects := by
    rw [rests]
    exact same.effects
  have receipts : buried.receipts = db.receipts := by
    rw [rests]
    exact same.receipts
  refine ⟨⟨fun key => ?_, fun key => ?_, fun key => ?_⟩, ?_⟩
  · have inGame := any_inSession identity session db key
    simp only [dropGameEffects, dropGameReceipts, FiniteMap.lookup_retain, effects]
    cases found : db.effects.lookup key with
    | none => simp
    | some effect =>
        rw [found, Option.any_some] at inGame
        rw [Option.filter_some, inGame]
        by_cases doomed : key ∈ gameKeys db identity session <;>
          simp [doomed]
  · simp only [dropGameEffects, dropGameReceipts, FiniteMap.lookup_retain,
      effects, receipts, any_inSession]
  · rw [← same.userDeleted]
    exact tombs key
  · rw [← same.suppression]
    have kept : buried.suppression = journaled.suppression := by
      rw [rests]
    exact kept

theorem keeps_deleteGameSessionProgram (identity session : String)
    (now : Nat) (before : AdmissionDb) :
    Tx.Keeps (fun db => db = before)
      (deleteGameSessionProgram identity session now)
      (fun deleted after =>
        deleted = isTerminalSession before identity session ∧
          if deleted then
            Purged (gameKeys before identity session) before after
          else after = before) := by
  rw [deleteGameSessionProgram]
  apply Tx.settles_query_bind
  intro db same
  subst same
  cases isTerminalSession db identity session with
  | false =>
      apply Tx.settles_pure
      intro reached same
      exact ⟨rfl, same⟩
  | true =>
      apply Tx.settles_execute_bind
      intro start isStart
      subst isStart
      apply Tx.settles_execute_bind
      intro journaled isJournaled
      apply Tx.settles_execute_bind
      intro buried isBuried
      apply Tx.settles_execute_bind
      intro unreceipted isUnreceipted
      apply Tx.settles_execute_bind
      intro purged isPurged
      apply Tx.settles_execute_bind
      intro quiet isQuiet
      apply Tx.settles_pure
      intro after isAfter
      subst isJournaled isBuried isUnreceipted isPurged
      refine ⟨rfl, (purged_game identity session now start).andThen ?_⟩
      rw [isAfter, isQuiet]
      exact ⟨rfl, rfl, rfl, rfl⟩

/-! ## Suppression -/

/-- What a batch of suppression rows can do, statement by statement. -/
inductive Suppresses (before : AdmissionDb) : AdmissionDb → Prop where
  | start : Suppresses before before
  | sweep (now : Nat) {db : AdmissionDb} (earlier : Suppresses before db) :
      Suppresses before (sweepSuppression now db)
  | remove (key : SuppressionKey) {db : AdmissionDb}
      (earlier : Suppresses before db) :
      Suppresses before { db with suppression := db.suppression.erase key }
  | write (row : SuppressionRow) {db : AdmissionDb}
      (room : hasSuppressionRoom row db = true)
      (earlier : Suppresses before db) :
      Suppresses before { db with suppression := db.suppression.insert row.key row }

/-- Only the suppression rows change. -/
theorem Suppresses.frame {before after : AdmissionDb} (suppresses : Suppresses before after) :
    after = { before with suppression := after.suppression } := by
  induction suppresses with
  | start => rfl
  | sweep now earlier ih =>
      rw [ih]
      rfl
  | remove key earlier ih => rw [ih]
  | write row room earlier ih => rw [ih]

theorem keeps_writeSuppressionProgram (rows : List SuppressionRow)
    (remove : List SuppressionKey) (now : Nat) (before : AdmissionDb) :
    Tx.Keeps (fun db => db = before)
      (writeSuppressionProgram rows remove now)
      (fun _ after => Suppresses before after) := by
  rw [writeSuppressionProgram]
  apply Tx.settles_execute_bind
  intro db same
  subst same
  have removes : Tx.Keeps (fun start => start = sweepSuppression now db)
      (Tx.forEach (fun key => Tx.execute fun db : AdmissionDb =>
        { db with suppression := db.suppression.erase key }) remove :
        AdmissionTx (List PUnit))
      (fun _ reached => Suppresses db reached) := by
    apply (Tx.settles_forEach (fun _ _ reached => Suppresses db reached)
      (fun _ _ key => Tx.settles_execute fun _ held => held.remove key)
      remove).weaken
    · intro start same
      subst same
      exact Suppresses.start.sweep now
    · intro _ _ held
      exact held
  apply removes.bind
  intro _
  have writes : Tx.Keeps (fun reached => Suppresses db reached)
      (Tx.forEach writeSuppressionRow rows)
      (fun _ reached => Suppresses db reached) := by
    apply Tx.settles_forEach (fun _ _ reached => Suppresses db reached)
    intro _ _ row
    rw [writeSuppressionRow]
    apply Tx.settles_query_bind
    intro reached held
    apply Tx.keeps_require_bind
    intro room
    apply Tx.settles_execute
    intro start same
    subst same
    exact held.write row room
  apply writes.bind
  intro _
  exact Tx.settles_pure fun _ held => held

/-! ## Operations -/

/-- The messages that an operation deletes. -/
def AdmissionDbOp.deletes (db : AdmissionDb) :
    AdmissionDbOp → List EffectKey
  | .deleteGameSession identity session _ =>
      if isTerminalSession db identity session then
        gameKeys db identity session
      else []
  | op =>
      match op.scope with
      | some scope => scope.doomed db.app
      | none => []

/-- All that an operation can do when it takes effect. -/
def AdmissionDbOp.Lands (before : AdmissionDb) :
    AdmissionDbOp → AdmissionDbAnswer → AdmissionDb → Prop
  | .commit plan _ apply, answer, after =>
      ∃ receipt settled, answer = .receipt receipt ∧
        Recorded plan apply before receipt settled after
  | .writeSuppression _ _ _, answer, after =>
      answer = .written ∧ Suppresses before after
  | .deleteGameSession identity session _, answer, after =>
      answer = .session (isTerminalSession before identity session) ∧
        if isTerminalSession before identity session then
          Purged (gameKeys before identity session) before after
        else after = before
  | .elsewhere change, answer, after =>
      answer = .changed ∧ after = { before with app := change before.app }
  | op, answer, after =>
      ∃ scope artifacts ids, op.scope = some scope ∧
        answer = .deleted artifacts ids ∧ Erased scope before after

/-- An operation other than a commit only revokes what it deletes. -/
theorem AdmissionDbOp.Lands.revoked {before after : AdmissionDb}
    {op : AdmissionDbOp} {answer : AdmissionDbAnswer}
    (lands : op.Lands before answer after) (noCommit : ∀ plan verifyRetained apply,
      op ≠ .commit plan verifyRetained apply) :
    Revoked (op.deletes before) before after := by
  have erased (scope : DeletionScope) (isScope : op.scope = some scope)
      (deletes : op.deletes before = scope.doomed before.app)
      (held : ∃ scope artifacts ids, op.scope = some scope ∧
        answer = .deleted artifacts ids ∧ Erased scope before after) :
      Revoked (op.deletes before) before after := by
    obtain ⟨other, _, _, isOther, -, isErased⟩ := held
    rw [isScope] at isOther
    cases isOther
    rw [deletes]
    exact isErased.purged.toRevoked
  cases op with
  | commit plan verifyRetained apply =>
      exact (noCommit plan verifyRetained apply rfl).elim
  | writeSuppression rows remove now =>
      have same := lands.2.frame
      have ledger : SameLedger before
          { after with suppression := before.suppression } := by
        rw [same]
        exact SameLedger.refl before
      have purged := (Purged.of_sameLedger ledger).toRevoked
      exact ⟨purged.effects, purged.receipts, purged.userDeleted⟩
  | deleteMessages identity peer now => exact erased _ rfl rfl lands
  | deleteThread identity peer thread now => exact erased _ rfl rfl lands
  | deleteSelected identity peer ids now => exact erased _ rfl rfl lands
  | deleteGameSession identity session now =>
      have ends := lands.2
      rw [AdmissionDbOp.deletes]
      split
      · rename_i isTerminal
        rw [if_pos isTerminal] at ends
        exact ends.toRevoked
      · rename_i goesOn
        rw [if_neg goesOn] at ends
        rw [ends]
        exact (Purged.of_sameLedger (SameLedger.refl before)).toRevoked
  | elsewhere change =>
      rw [lands.2]
      have ledger : SameLedger before
          { before with app := change before.app } :=
        ⟨rfl, rfl, rfl, rfl⟩
      exact (Purged.of_sameLedger ledger).toRevoked

namespace AdmissionDb

/-- An operation took effect as a whole, or it failed and nothing of it
did. -/
def Performed.Atomic (performed : Performed) (before : AdmissionDb)
    (lands : AdmissionDbAnswer → AdmissionDb → Prop) : Prop :=
  (∃ answer, performed.landed = some answer ∧
      lands answer performed.tables ∧
      (performed.result = .ok answer ∨
        ∃ reason, performed.result = .error (.commitUncertain reason))) ∨
    (performed.landed = none ∧ performed.tables = before ∧
      ∃ failure, performed.result = .error failure)

private theorem atomic_refuse (db : AdmissionDb) (failure : AdmissionDbError)
    (lands : AdmissionDbAnswer → AdmissionDb → Prop) :
    (db.refuse failure).Atomic db lands :=
  Or.inr ⟨rfl, rfl, failure, rfl⟩

private theorem atomic_transact {Value : Type} {db : AdmissionDb}
    {program : AdmissionTx Value} {answer : Value → AdmissionDbAnswer}
    {lands : AdmissionDbAnswer → AdmissionDb → Prop} (call : AdmissionDbCall)
    (keeps : Tx.Keeps (fun start => start = db) program
      (fun value after => lands (answer value) after)) :
    (db.transact call program answer).Atomic db lands := by
  have whole : Tx.Keeps (fun start => start = db)
      (do
        let value ← program
        pure (answer value))
      lands :=
    keeps.bind fun _ => Tx.settles_pure fun _ held => held
  rcases Tx.immediate_cases whole call.circumstances
      (.commitUncertain call.reason) rfl with
    ⟨value, landed, ends, result⟩ | unchanged
  · refine Or.inl ⟨value, landed, ends, ?_⟩
    rcases result with worked | unsure
    · exact Or.inl worked
    · exact Or.inr ⟨call.reason, unsure⟩
  · exact Or.inr unchanged

private theorem atomic_deleteScoped (db : AdmissionDb)
    (call : AdmissionDbCall) (op : AdmissionDbOp) {scope : DeletionScope}
    (isScope : op.scope = some scope) (now : Nat) :
    (db.deleteScoped call scope now).Atomic db (fun answer after =>
      ∃ scope artifacts ids, op.scope = some scope ∧
        answer = .deleted artifacts ids ∧ Erased scope db after) := by
  rw [deleteScoped]
  split
  · exact atomic_refuse db _ _
  · apply atomic_transact
    apply (keeps_deleteScopedProgram scope now db).weaken
    · intro start same
      exact same
    · intro deleted after erased
      exact ⟨scope, deleted.1, deleted.2, isScope, rfl, erased⟩

/-- Every operation is atomic. -/
theorem atomic_perform (db : AdmissionDb) (call : AdmissionDbCall)
    (op : AdmissionDbOp) : (db.perform call op).Atomic db (op.Lands db) := by
  cases op with
  | commit plan verifyRetained apply =>
      apply atomic_transact
      apply (keeps_commitProgram plan verifyRetained apply db).weaken
      · intro start same
        exact same
      · intro receipt after ⟨settled, recorded⟩
        exact ⟨receipt, settled, rfl, recorded⟩
  | writeSuppression rows remove now =>
      rw [perform]
      split
      · exact atomic_refuse db _ _
      · apply atomic_transact
        apply (keeps_writeSuppressionProgram rows remove now db).weaken
        · intro start same
          exact same
        · intro _ after suppresses
          exact ⟨rfl, suppresses⟩
  | deleteMessages identity peer now =>
      rw [perform]
      split
      · exact atomic_refuse db _ _
      · exact atomic_deleteScoped db call (.deleteMessages identity peer now) rfl now
  | deleteThread identity peer thread now =>
      exact atomic_deleteScoped db call (.deleteThread identity peer thread now) rfl now
  | deleteSelected identity peer ids now =>
      rw [perform]
      split
      · exact atomic_refuse db _ _
      · exact atomic_deleteScoped db call (.deleteSelected identity peer ids now) rfl now
  | deleteGameSession identity session now =>
      rw [perform]
      split
      · exact atomic_refuse db _ _
      · apply atomic_transact
        apply (keeps_deleteGameSessionProgram identity session now db).weaken
        · intro start same
          exact same
        · intro deleted after ⟨isTerminal, ends⟩
          subst isTerminal
          exact ⟨rfl, ends⟩
  | elsewhere change => exact Or.inl ⟨.changed, rfl, ⟨rfl, rfl⟩, Or.inl rfl⟩

end AdmissionDb

end Ratspeak
