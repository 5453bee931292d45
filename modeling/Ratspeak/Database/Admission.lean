import Mathlib.Data.List.Dedup
import Mathlib.Data.List.Sort
import Ratspeak.Database.Messages
import Ratspeak.Library.Bytes
import Ratspeak.Library.Transactions

/-!
# Durable admission

Messages downloaded from a propagation node are admitted in one transaction:
the effect of a message, and a receipt for the bytes in which it came.  When a
user deletes a message, its effect and its receipts go, and a tombstone stays
for ever, so that a later download of the message has no effect.

The columns that hold JSON are modelled by the values they encode.  What the
effect of a message does to the tables of the app is given by the caller; it
has no access to the tables of this ledger.
-/

namespace Ratspeak

open Library

abbrev MessageHash := Bytes 32
abbrev TransientId := Bytes 32
abbrev WireHash := Bytes 32
abbrev NodeHash := Bytes 16

/-- An identity and a message. -/
abbrev EffectKey := String × MessageHash

/-- An identity and the transient id of a download. -/
abbrev ReceiptKey := String × TransientId

abbrev SuppressionKey := String × NodeHash × TransientId

def policyReceiptSeconds : Nat := 90 * 86400
def maxPolicyPerIdentity : Nat := 16384
def maxPolicyGlobal : Nat := 65536
def maxSelectedDeletion : Nat := 500
def maxSuppressionGlobal : Nat := 65536
def maxSuppressionPerIdentity : Nat := 16384
def maxSuppressionPerNode : Nat := 4096

/-- The largest number of seconds that a clock of the program shows. -/
def clockLimit : Nat := 2 ^ 64 - 1

inductive AdmissionDbError where
  | tooLarge
  | busy
  | unavailable (reason : String)
  | commitUncertain (reason : String)
  | ledgerFull
  | missingEffect
  | noIdentity
  | stillSending
deriving DecidableEq, Repr

inductive Disposition where
  | committed
  | duplicate
  | policyDiscard
  | userDeleted
deriving DecidableEq, Repr

/-- The message has no retained effect. -/
def Disposition.isPolicy : Disposition → Bool
  | .policyDiscard => true
  | .userDeleted => true
  | _ => false

structure FileReference where
  name : String
  hash : Bytes 32
  length : Nat
deriving DecidableEq

structure GameReference where
  identity : String
  session : String
  nonce : Bytes 8
  envelope : List UInt8
deriving DecidableEq

/-! ## Tables -/

structure EffectRow where
  storedWireHash : WireHash
  archivePath : String
  mediaManifest : List FileReference
  gameReference : Option GameReference
  gameIdentity : Option String
  gameSession : Option String
  effectKind : String
  committedAt : Nat

structure ReceiptRow where
  node : NodeHash
  messageId : MessageHash
  receivedWireHash : WireHash
  storedWireHash : Option WireHash
  disposition : Disposition
  committedAt : Nat
  expiresAt : Option Nat

structure SuppressionRow where
  identity : String
  node : NodeHash
  transientId : TransientId
  encoded : List UInt8
  expiresAt : Nat

def SuppressionRow.key (row : SuppressionRow) : SuppressionKey :=
  (row.identity, row.node, row.transientId)

inductive DeletedArtifactKind where
  | media
  | archive
deriving DecidableEq, Repr

structure DeletedArtifact where
  identity : String
  path : String
deriving DecidableEq, Repr

structure PendingDeletedArtifact where
  id : Nat
  kind : DeletedArtifactKind
  artifact : DeletedArtifact
deriving DecidableEq, Repr

structure AppAction where
  identity : String
  session : String
  envelope : List UInt8
deriving DecidableEq

structure Reaction where
  identity : String
  messageId : String
  sender : String
  emoji : String
deriving DecidableEq

/-- The tables of the app that effects and deletions write. -/
structure AppTables where
  messages : MessageTable
  reactions : List Reaction
  appSessions : FiniteMap (String × String) String
  appActions : List AppAction
  hiddenConversations : List (String × String)
  conversationThreads : List (String × String × String)
  blockedContacts : List (String × String)

structure AdmissionDb where
  effects : FiniteMap EffectKey EffectRow
  receipts : FiniteMap ReceiptKey ReceiptRow
  userDeleted : FiniteMap EffectKey Nat
  suppression : FiniteMap SuppressionKey SuppressionRow
  deletedArtifacts : List PendingDeletedArtifact
  artifactsDrawn : Nat
  app : AppTables

namespace AdmissionDb

/-- A ledger without an entry. -/
def fresh (app : AppTables) : AdmissionDb where
  effects := ∅
  receipts := ∅
  userDeleted := ∅
  suppression := ∅
  deletedArtifacts := []
  artifactsDrawn := 0
  app := app

/-- Remove a limited number of the bindings that a statement selects. -/
def deleteSome {κ ν : Type} [DecidableEq κ] (limit : Nat)
    (selects : κ → ν → Bool) (table : FiniteMap κ ν) : FiniteMap κ ν :=
  (((FiniteMap.bindings table).filter fun entry =>
    selects entry.1 entry.2).take limit).foldl
    (fun table entry => table.erase entry.1) table

end AdmissionDb

/-! ## Admission -/

/-- One downloaded message, with what it needs to be recorded.  One with
another identity or a longer path is not prepared, and its time is that of the
system's clock, which fits a row also with the seconds of a receipt. -/
structure PreparedAdmission where
  identity : String
  transientId : TransientId
  node : NodeHash
  messageId : MessageHash
  receivedWireHash : WireHash
  archivePath : String
  mediaManifest : List FileReference
  gameReference : Option GameReference
  committedAt : Nat
  identityHex : identity.utf8ByteSize = 32 ∧ identity.toList.all isAsciiHexDigit = true
  archiveFits : archivePath.utf8ByteSize ≤ 4096
  timeFits : committedAt + policyReceiptSeconds < 2 ^ 63

namespace PreparedAdmission

def effectKey (plan : PreparedAdmission) : EffectKey :=
  (plan.identity, plan.messageId)

def receiptKey (plan : PreparedAdmission) : ReceiptKey :=
  (plan.identity, plan.transientId)

/-- The key of the message's row among the messages of the app. -/
def messageKey (plan : PreparedAdmission) : MessageKey :=
  (plan.identity, hexEncode plan.messageId.val)

end PreparedAdmission

/-- What the effect of a message was. -/
inductive EffectCommit where
  | applied (kind : String)
  | policyDiscard

/-- The effect of a message on the tables of the app.  An effect that says it
was a chat message has saved the message's row. -/
structure AppEffect (plan : PreparedAdmission) where
  run : AppTables → Except AdmissionDbError (EffectCommit × AppTables)
  saves : ∀ before after,
    run before = .ok (.applied "message", after) →
    (after.messages.lookup plan.messageKey).isSome = true

/-- What a downloaded message is to the app. -/
inductive Projection where
  | service
  | game (apply : AppTables → Except AdmissionDbError AppTables)
  | reaction (target emoji : String) (remove : Bool)
  | chat (attachment image audio thread : String)

namespace Projection

/-- Save a chat message; its conversation is shown again. -/
def saveChat (plan : PreparedAdmission) (row : MessageRow)
    (app : AppTables) : Except AdmissionDbError AppTables :=
  match app.messages.trySaveMessage plan.messageKey row with
  | none => .error (.unavailable "no active identity")
  | some messages =>
      .ok
        { app with
          messages := messages
          hiddenConversations := app.hiddenConversations.filter
            fun hidden => hidden ≠ (plan.identity, row.source) }

def react (reaction : Reaction) (remove : Bool) (app : AppTables) :
    AppTables :=
  { app with
    reactions :=
      if remove then app.reactions.filter fun other => other ≠ reaction
      else if reaction ∈ app.reactions then app.reactions
      else app.reactions ++ [reaction] }

/-- The effect of a message from a source: none if the source is blocked. -/
def run (plan : PreparedAdmission) (source destination : String)
    (projection : Projection) (app : AppTables) :
    Except AdmissionDbError (EffectCommit × AppTables) :=
  if (plan.identity, source) ∈ app.blockedContacts then
    .ok (.policyDiscard, app)
  else
    match projection with
    | .service => .ok (.applied "service", app)
    | .game apply => (apply app).map fun app => (.applied "game", app)
    | .reaction target emoji remove =>
        .ok (.applied "reaction", react
          { identity := plan.identity
            messageId := target
            sender := source
            emoji := emoji }
          remove app)
    | .chat attachment image audio thread =>
        (saveChat plan
          { source := source
            destination := destination
            state := "received"
            direction := "inbound"
            attachmentStoredName := attachment
            imageStoredName := image
            audioStoredName := audio
            deliveryMethod := some "propagated"
            thread := thread }
          app).map fun app => (.applied "message", app)

/-- A chat message that was saved has its row. -/
theorem saveChat_saves {plan : PreparedAdmission} {row : MessageRow}
    {before after : AppTables} (saved : saveChat plan row before = .ok after) :
    (after.messages.lookup plan.messageKey).isSome = true := by
  rw [saveChat] at saved
  split at saved
  · cases saved
  · rename_i messages known
    cases saved
    rw [MessageTable.trySaveMessage] at known
    split at known
    · cases known
    · split at known
      · rename_i held found
        cases known
        simp [found]
      · cases known
        simp

def effect (plan : PreparedAdmission) (source destination : String)
    (projection : Projection) : AppEffect plan where
  run := projection.run plan source destination
  saves := by
    intro before after ran
    unfold run at ran
    split at ran
    · cases ran
    · cases projection with
      | service => simp at ran
      | game apply =>
          cases applied : apply before with
          | error failure => simp [applied, Except.map] at ran
          | ok reached => simp [applied, Except.map] at ran
      | reaction target emoji remove => simp at ran
      | chat attachment image audio thread =>
          simp only at ran
          cases saved : saveChat plan _ before with
          | error failure =>
              rw [saved] at ran
              cases ran
          | ok reached =>
              rw [saved] at ran
              cases ran
              exact saveChat_saves saved

end Projection

structure AdmissionReceipt where
  identity : String
  transientId : TransientId
  node : NodeHash
  messageId : MessageHash
  receivedWireHash : WireHash
  storedWireHash : Option WireHash
  disposition : Disposition
  committedAt : Nat

/-- The retained action of a game effect is there. -/
def AppTables.retainsGame (app : AppTables) (game : GameReference) : Bool :=
  app.appActions.any fun action => action.identity = game.identity &&
    action.session = game.session && action.envelope = game.envelope

abbrev AdmissionTx := Tx AdmissionDb AdmissionDbError

section Commit

variable (plan : PreparedAdmission)

def verifyGame (game : Option GameReference) : AdmissionTx Unit :=
  match game with
  | none => throw .missingEffect
  | some game => do
      let retained ← Tx.query fun db => db.app.retainsGame game
      Tx.require retained .missingEffect

def verifyGameOf (kind : String) (game : Option GameReference) :
    AdmissionTx Unit :=
  if kind = "game" then verifyGame game else pure ()

def verifyMessageOf (kind : String) : AdmissionTx Unit :=
  if kind = "message" then do
    let exists_ ← Tx.query fun db =>
      (db.app.messages.lookup plan.messageKey).isSome
    Tx.require exists_ .missingEffect
  else pure ()

/-- The archived form of the message is retained. -/
abbrev VerifyRetained :=
  String → WireHash → List FileReference → Except AdmissionDbError Unit

/-- A message whose effect was applied before: all of it must be there. -/
def admitDuplicate (verifyRetained : VerifyRetained) (effect : EffectRow) :
    AdmissionTx (Disposition × Option WireHash) := do
  Tx.attempt fun db =>
    (verifyRetained effect.archivePath effect.storedWireHash
      effect.mediaManifest).map fun _ => ((), db)
  verifyGameOf effect.effectKind effect.gameReference
  verifyMessageOf plan effect.effectKind
  pure (.duplicate, some effect.storedWireHash)

def effectKinds : List String :=
  ["message", "reaction", "game", "service"]

/-- The row of an effect that is applied now. -/
def newEffect (kind : String) : EffectRow where
  storedWireHash := plan.receivedWireHash
  archivePath := plan.archivePath
  mediaManifest := plan.mediaManifest
  gameReference := plan.gameReference
  gameIdentity := plan.gameReference.map GameReference.identity
  gameSession := plan.gameReference.map GameReference.session
  effectKind := kind
  committedAt := plan.committedAt

/-- A message that is new: apply its effect. -/
def admitNew (apply : AppEffect plan) :
    AdmissionTx (Disposition × Option WireHash) := do
  let commit ← Tx.attempt fun db =>
    (apply.run db.app).map fun (commit, app) =>
      (commit, { db with app := app })
  match commit with
  | .policyDiscard => pure (.policyDiscard, none)
  | .applied kind => do
      Tx.require (kind ∈ effectKinds) .missingEffect
      verifyGameOf kind plan.gameReference
      Tx.execute fun db =>
        { db with
          effects := db.effects.insert plan.effectKey (newEffect plan kind) }
      pure (.committed, some plan.receivedWireHash)

/-- The receipts without a retained effect, and those of one identity. -/
def policyCounts (db : AdmissionDb) (identity : String) : Nat × Nat :=
  let policy := (FiniteMap.bindings db.receipts).filter fun entry =>
    entry.2.disposition.isPolicy
  (policy.length, policy.countP fun entry => entry.1.1 = identity)

/-- Write the receipt.  The message and the bytes of a receipt that is there
already stay as they are. -/
def recordReceipt (disposition : Disposition)
    (storedWireHash : Option WireHash) (db : AdmissionDb) : AdmissionDb :=
  let expiresAt := if disposition.isPolicy then
      some (min (plan.committedAt + policyReceiptSeconds) clockLimit)
    else none
  let row := match db.receipts.lookup plan.receiptKey with
    | none =>
        { node := plan.node
          messageId := plan.messageId
          receivedWireHash := plan.receivedWireHash
          storedWireHash := storedWireHash
          disposition := disposition
          committedAt := plan.committedAt
          expiresAt := expiresAt }
    | some prior =>
        { prior with
          node := plan.node
          storedWireHash := storedWireHash
          disposition := disposition
          committedAt := plan.committedAt
          expiresAt := expiresAt }
  { db with receipts := db.receipts.insert plan.receiptKey row }

/-- Forget that the download was to be put off. -/
def clearSuppressed (db : AdmissionDb) : AdmissionDb :=
  { db with
    suppression := FiniteMap.retain
      (fun key _ => !(key.1 = plan.identity && key.2.2 = plan.transientId))
      db.suppression }

/-- Remove some of the receipts that have expired. -/
def sweepReceipts (now : Nat) (db : AdmissionDb) : AdmissionDb :=
  { db with
    receipts := AdmissionDb.deleteSome 256
      (fun _ (row : ReceiptRow) => row.expiresAt.any fun expires =>
        expires ≤ now)
      db.receipts }

/-- What becomes of the message. -/
def settle (verifyRetained : VerifyRetained) (apply : AppEffect plan) :
    AdmissionTx (Disposition × Option WireHash) := do
  let deleted ← Tx.query fun db =>
    (db.userDeleted.lookup plan.effectKey).isSome
  let existing ← Tx.query fun db => db.effects.lookup plan.effectKey
  if deleted then pure (.userDeleted, none)
  else
    match existing with
    | some effect => admitDuplicate plan verifyRetained effect
    | none => admitNew plan apply

/-- There is room for one more receipt without a retained effect. -/
def hasPolicyRoom (db : AdmissionDb) : Bool :=
  let (global, identity) := policyCounts db plan.identity
  (db.receipts.lookup plan.receiptKey).isSome ||
    (global < maxPolicyGlobal && identity < maxPolicyPerIdentity)

def checkPolicyRoom (disposition : Disposition) : AdmissionTx Unit :=
  if disposition.isPolicy then do
    let room ← Tx.query (hasPolicyRoom plan)
    Tx.require room .ledgerFull
  else pure ()

def commitProgram (verifyRetained : VerifyRetained)
    (apply : AppEffect plan) : AdmissionTx AdmissionReceipt := do
  Tx.execute (sweepReceipts plan.committedAt)
  let prior ← Tx.query fun db => db.receipts.lookup plan.receiptKey
  Tx.require
    (prior.all fun row => row.messageId = plan.messageId &&
      row.receivedWireHash = plan.receivedWireHash)
    .missingEffect
  let settled ← settle plan verifyRetained apply
  checkPolicyRoom plan settled.1
  Tx.execute (recordReceipt plan settled.1 settled.2)
  Tx.execute (clearSuppressed plan)
  pure
    { identity := plan.identity
      transientId := plan.transientId
      node := plan.node
      messageId := plan.messageId
      receivedWireHash := plan.receivedWireHash
      storedWireHash := settled.2
      disposition := settled.1
      committedAt := plan.committedAt }

end Commit

/-! ## Reported receipts -/

/-- A receipt of the identity that still counts, with what is retained for
it. -/
def reports (db : AdmissionDb) (identity : String) (now : Nat)
    (entry : ReceiptKey × ReceiptRow) : Bool :=
  let row := entry.2
  let effect := db.effects.lookup (entry.1.1, row.messageId)
  entry.1.1 = identity && (row.expiresAt.all fun expires => now < expires) &&
    (row.disposition.isPolicy ||
      effect.any fun effect => row.storedWireHash = some effect.storedWireHash &&
        (effect.effectKind ≠ "message" ||
          (db.app.messages.lookup (entry.1.1, hexEncode row.messageId.val)).isSome)) &&
    effect.all fun effect => effect.effectKind ≠ "game" ||
      effect.gameReference.any db.app.retainsGame

def receipts (db : AdmissionDb) (identity : String) (now : Nat) :
    List AdmissionReceipt :=
  ((FiniteMap.bindings db.receipts).filter (reports db identity now)).map
    fun entry =>
      { identity := identity
        transientId := entry.1.2
        node := entry.2.node
        messageId := entry.2.messageId
        receivedWireHash := entry.2.receivedWireHash
        storedWireHash := entry.2.storedWireHash
        disposition := entry.2.disposition
        committedAt := entry.2.committedAt }

/-! ## Suppression -/

def suppressionCounts (db : AdmissionDb) (row : SuppressionRow) :
    Nat × Nat × Nat :=
  let entries := FiniteMap.bindings db.suppression
  (entries.length,
    entries.countP fun entry => entry.1.1 = row.identity,
    entries.countP fun entry =>
      entry.1.1 = row.identity && entry.1.2.1 = row.node)

/-- The row is there already, or there is room for it. -/
def hasSuppressionRoom (row : SuppressionRow) (db : AdmissionDb) : Bool :=
  let (global, identity, node) := suppressionCounts db row
  (db.suppression.lookup row.key).isSome ||
    (global < maxSuppressionGlobal &&
      identity < maxSuppressionPerIdentity && node < maxSuppressionPerNode)

def writeSuppressionRow (row : SuppressionRow) : AdmissionTx Unit := do
  let room ← Tx.query (hasSuppressionRoom row)
  Tx.require room .ledgerFull
  Tx.execute fun db =>
    { db with suppression := db.suppression.insert row.key row }

def sweepSuppression (now : Nat) (db : AdmissionDb) : AdmissionDb :=
  { db with
    suppression := AdmissionDb.deleteSome 256
      (fun _ (row : SuppressionRow) => row.expiresAt ≤ now)
      db.suppression }

def writeSuppressionProgram (rows : List SuppressionRow)
    (remove : List SuppressionKey) (now : Nat) : AdmissionTx Unit := do
  Tx.execute (sweepSuppression now)
  let _ ← Tx.forEach
    (fun key => Tx.execute fun db =>
      { db with suppression := db.suppression.erase key })
    remove
  let _ ← Tx.forEach writeSuppressionRow rows
  pure ()

/-- The rows fit one batch. -/
def suppressionFits (rows : List SuppressionRow) (remove : List SuppressionKey) : Bool :=
  rows.length + remove.length ≤ 256 &&
    rows.all fun row => row.encoded.length ≤ 512 &&
      row.identity.utf8ByteSize = 32

/-! ## Deletion -/

/-- Leave a tombstone, unless there is one. -/
def bury (key : EffectKey) (now : Nat) (db : AdmissionDb) : AdmissionDb :=
  { db with
    userDeleted :=
      if (db.userDeleted.lookup key).isSome then db.userDeleted
      else db.userDeleted.insert key now }

def dropReceipts (key : EffectKey) (db : AdmissionDb) : AdmissionDb :=
  { db with
    receipts := FiniteMap.retain
      (fun receipt row => !decide ((receipt.1, row.messageId) = key))
      db.receipts }

def dropEffect (key : EffectKey) (db : AdmissionDb) : AdmissionDb :=
  { db with effects := db.effects.erase key }

/-- Remember a file that may no longer be needed. -/
def journal (kind : DeletedArtifactKind) (artifact : DeletedArtifact)
    (db : AdmissionDb) : AdmissionDb :=
  if db.deletedArtifacts.any fun entry =>
      entry.kind = kind && entry.artifact = artifact then db
  else
    { db with
      deletedArtifacts := db.deletedArtifacts ++
        [{ id := db.artifactsDrawn + 1, kind := kind, artifact := artifact }]
      artifactsDrawn := db.artifactsDrawn + 1 }

/-- Which messages a deletion is about. -/
structure DeletionScope where
  identity : String
  peer : Option String
  thread : Option String
  ids : Option (List String)

namespace DeletionScope

def covers (scope : DeletionScope) (key : MessageKey) (row : MessageRow) :
    Bool :=
  key.1 = scope.identity &&
    (scope.peer.all fun peer => row.source = peer || row.destination = peer) &&
    (scope.ids.all fun ids => key.2 ∈ ids) &&
    (scope.thread.all fun thread => row.thread = thread)

/-- The rows in the scope. -/
def rows (scope : DeletionScope) (app : AppTables) :
    List (MessageKey × MessageRow) :=
  (FiniteMap.bindings app.messages).filter fun entry =>
    scope.covers entry.1 entry.2

end DeletionScope

/-- The states of an outbound message that can no longer be cancelled. -/
def deletableStates : List String :=
  ["delivered", "propagated", "failed", "cancelled", "rejected", "timeout", "read"]

def asciiLowercase (text : String) : String :=
  String.ofList (text.toList.map Char.toLower)

/-- The message can still be cancelled. -/
def isStillSending (row : MessageRow) : Bool :=
  row.direction = "outbound" && !decide (row.state ∈ deletableStates) &&
    !(row.state = "sent" && asciiLowercase (row.deliveryMethod.getD "") ≠ "direct")

/-- The message of a downloaded row: its id is a hash. -/
def downloadedKey (key : MessageKey) : Option EffectKey :=
  ((hexDecode key.2).bind (Bytes.ofList 32)).map fun id => (key.1, id)

def attachmentUnavailableStoredName : String :=
  "!unavailable"

structure MessageDeletionArtifacts where
  media : List DeletedArtifact
  archives : List DeletedArtifact

def DeletedArtifact.comesBefore (first second : DeletedArtifact) : Bool :=
  first.identity < second.identity ||
    first.identity = second.identity && first.path ≤ second.path

/-- The artifacts in order, each of them once. -/
def inOrder (artifacts : List DeletedArtifact) : List DeletedArtifact :=
  artifacts.dedup.mergeSort DeletedArtifact.comesBefore

/-- The columns of a row are within their bounds. -/
def rowFits (entry : MessageKey × MessageRow) : Bool :=
  entry.1.2.utf8ByteSize ≤ 128 && entry.1.1.utf8ByteSize ≤ 128 &&
    entry.2.attachmentStoredName.utf8ByteSize ≤ 1024 &&
    entry.2.imageStoredName.utf8ByteSize ≤ 1024 &&
    entry.2.audioStoredName.utf8ByteSize ≤ 1024

/-- The files that a row names. -/
def rowMedia (entry : MessageKey × MessageRow) : List DeletedArtifact :=
  ([entry.2.attachmentStoredName, entry.2.imageStoredName,
    entry.2.audioStoredName].filter fun path =>
      !path.isEmpty && path ≠ attachmentUnavailableStoredName).map
    fun path => { identity := entry.1.1, path := path }

/-- Revoke one message, and return its archive if it has one. -/
def deleteRow (now : Nat) (entry : MessageKey × MessageRow) :
    AdmissionTx (List DeletedArtifact) := do
  Tx.require (rowFits entry) (.unavailable "deletion metadata exceeds bounded column length")
  match downloadedKey entry.1 with
  | none => pure []
  | some key =>
      let archive ← Tx.query fun db =>
        (db.effects.lookup key).map EffectRow.archivePath
      Tx.require (archive.all fun path => path.utf8ByteSize ≤ 4096)
        (.unavailable "deletion metadata exceeds bounded column length")
      Tx.execute (bury key now)
      Tx.execute (dropReceipts key)
      Tx.execute (dropEffect key)
      pure (archive.toList.map fun path =>
        { identity := entry.1.1, path := path })

def dropReactions (scope : DeletionScope) (db : AdmissionDb) :
    AdmissionDb :=
  let doomed := (scope.rows db.app).map Prod.fst
  { db with
    app :=
      { db.app with
        reactions := db.app.reactions.filter fun reaction =>
          !(reaction.identity = scope.identity &&
            decide ((reaction.identity, reaction.messageId) ∈ doomed)) } }

def dropRows (scope : DeletionScope) (db : AdmissionDb) : AdmissionDb :=
  { db with
    app :=
      { db.app with
        messages := FiniteMap.retain (fun key row => !scope.covers key row) db.app.messages } }

/-- Forget the conversations that a deletion was about. -/
def dropConversations (scope : DeletionScope) (db : AdmissionDb) :
    AdmissionDb :=
  match scope.peer, scope.thread with
  | some peer, none =>
      { db with
        app :=
          { db.app with
            hiddenConversations :=
              db.app.hiddenConversations.filter fun hidden =>
                hidden ≠ (scope.identity, peer)
            conversationThreads :=
              db.app.conversationThreads.filter fun entry =>
                !(entry.1 = scope.identity && entry.2.1 = peer) } }
  | some peer, some thread =>
      { db with
        app :=
          { db.app with
            conversationThreads :=
              db.app.conversationThreads.filter fun entry =>
                entry ≠ (scope.identity, peer, thread) } }
  | none, _ =>
      { db with
        app :=
          { db.app with
            conversationThreads :=
              db.app.conversationThreads.filter fun entry =>
                entry.1 ≠ scope.identity } }

/-- A selection is refused as a whole while one of it is still sending. -/
def refuseSending (scope : DeletionScope) : AdmissionTx Unit :=
  if scope.ids.isSome then do
    let sending ← Tx.query fun db =>
      (scope.rows db.app).any fun entry => isStillSending entry.2
    Tx.require (!sending) .stillSending
  else pure ()

/-- A selection leaves its conversation as it is. -/
def forgetConversations (scope : DeletionScope) : AdmissionTx Unit :=
  if scope.ids.isNone then Tx.execute (dropConversations scope)
  else pure ()

def deleteScopedProgram (scope : DeletionScope) (now : Nat) :
    AdmissionTx (MessageDeletionArtifacts × List String) := do
  refuseSending scope
  let rows ← Tx.query fun db => scope.rows db.app
  let archives ← Tx.forEach (deleteRow now) rows
  let media := rows.flatMap rowMedia
  let _ ← Tx.forEach (fun artifact => Tx.execute (journal .media artifact)) media
  let _ ← Tx.forEach
    (fun artifact => Tx.execute (journal .archive artifact))
    archives.flatten
  Tx.execute (dropReactions scope)
  Tx.execute (dropRows scope)
  forgetConversations scope
  let deleted := if scope.ids.isSome then rows.map fun entry => entry.1.2
    else []
  pure ({ media := inOrder media, archives := inOrder archives.flatten }, deleted.mergeSort)

/-! ## Game sessions -/

def terminalSessions : List String :=
  ["completed", "declined", "expired"]

/-- The effect belongs to the game session. -/
def EffectRow.inSession (row : EffectRow) (identity session : String) :
    Bool :=
  row.gameIdentity = some identity && row.gameSession = some session

/-- The effects of one game session. -/
def gameEffects (db : AdmissionDb) (identity session : String) :
    List (EffectKey × EffectRow) :=
  (FiniteMap.bindings db.effects).filter fun entry =>
    entry.2.inSession identity session

def journalGame (identity session : String) (db : AdmissionDb) :
    AdmissionDb :=
  (gameEffects db identity session).foldl
    (fun db entry => journal .archive
      { identity := entry.1.1, path := entry.2.archivePath } db)
    db

def buryGame (identity session : String) (now : Nat) (db : AdmissionDb) :
    AdmissionDb :=
  (gameEffects db identity session).foldl (fun db entry => bury entry.1 now db) db

def dropGameReceipts (identity session : String) (db : AdmissionDb) :
    AdmissionDb :=
  { db with
    receipts := FiniteMap.retain
      (fun key row => !(db.effects.lookup (key.1, row.messageId)).any
        fun effect => effect.inSession identity session)
      db.receipts }

def dropGameEffects (identity session : String) (db : AdmissionDb) :
    AdmissionDb :=
  { db with
    effects := FiniteMap.retain (fun _ row => !row.inSession identity session) db.effects }

def dropGameActions (identity session : String) (db : AdmissionDb) :
    AdmissionDb :=
  { db with
    app :=
      { db.app with
        appActions := db.app.appActions.filter fun action =>
          !(action.identity = identity && action.session = session) } }

def dropGameSession (identity session : String) (db : AdmissionDb) :
    AdmissionDb :=
  { db with
    app :=
      { db.app with
        appSessions := db.app.appSessions.erase (identity, session) } }

/-- The session is over, so that it can be deleted. -/
def isTerminalSession (db : AdmissionDb) (identity session : String) :
    Bool :=
  (db.app.appSessions.lookup (identity, session)).any fun status =>
    status ∈ terminalSessions

def deleteGameSessionProgram (identity session : String) (now : Nat) :
    AdmissionTx Bool := do
  let terminal ← Tx.query fun db => isTerminalSession db identity session
  if !terminal then pure false
  else
    Tx.execute (journalGame identity session)
    Tx.execute (buryGame identity session now)
    Tx.execute (dropGameReceipts identity session)
    Tx.execute (dropGameEffects identity session)
    Tx.execute (dropGameActions identity session)
    Tx.execute (dropGameSession identity session)
    pure true

/-! ## Operations -/

/-- The operations on the ledger, and all else that the app does to its own
tables. -/
inductive AdmissionDbOp where
  | commit (plan : PreparedAdmission) (verifyRetained : VerifyRetained)
      (apply : AppEffect plan)
  | writeSuppression (rows : List SuppressionRow)
      (remove : List SuppressionKey) (now : Nat)
  | deleteMessages (identity : String) (peer : Option String) (now : Nat)
  | deleteThread (identity peer thread : String) (now : Nat)
  | deleteSelected (identity peer : String) (ids : List String) (now : Nat)
  | deleteGameSession (identity session : String) (now : Nat)
  | elsewhere (change : AppTables → AppTables)

inductive AdmissionDbAnswer where
  | receipt (receipt : AdmissionReceipt)
  | written
  | deleted (artifacts : MessageDeletionArtifacts) (ids : List String)
  | session (deleted : Bool)
  | changed

/-- What an operation meets with: whether another admission is running, and
how the database fares. -/
structure AdmissionDbCall where
  busy : Bool
  reason : String
  circumstances : Circumstances AdmissionDbError

/-- The scope of an operation that deletes messages. -/
def AdmissionDbOp.scope : AdmissionDbOp → Option DeletionScope
  | .deleteMessages identity peer _ =>
      some { identity := identity, peer := peer, thread := none, ids := none }
  | .deleteThread identity peer thread _ =>
      some
        { identity := identity
          peer := some peer
          thread := some thread
          ids := none }
  | .deleteSelected identity peer ids _ =>
      some
        { identity := identity
          peer := some peer
          thread := none
          ids := some ids }
  | _ => none

namespace AdmissionDb

abbrev Performed :=
  Attempt AdmissionDb AdmissionDbError AdmissionDbAnswer

/-- Refused before anything was done. -/
def refuse (db : AdmissionDb) (failure : AdmissionDbError) : Performed :=
  { result := .error failure, tables := db, landed := none }

def transact {Value : Type} (db : AdmissionDb) (call : AdmissionDbCall)
    (program : AdmissionTx Value) (answer : Value → AdmissionDbAnswer) :
    Performed :=
  Tx.immediate call.circumstances (.commitUncertain call.reason)
    (do
      let value ← program
      pure (answer value))
    db

/-- An empty identity must never widen a deletion to every identity. -/
def deleteScoped (db : AdmissionDb) (call : AdmissionDbCall)
    (scope : DeletionScope) (now : Nat) : Performed :=
  if scope.identity.isEmpty then db.refuse .noIdentity
  else
    db.transact call (deleteScopedProgram scope now) fun deleted =>
      .deleted deleted.1 deleted.2

def perform (db : AdmissionDb) (call : AdmissionDbCall) :
    AdmissionDbOp → Performed
  | .commit plan verifyRetained apply =>
      db.transact call (commitProgram plan verifyRetained apply) .receipt
  | .writeSuppression rows remove now =>
      if !suppressionFits rows remove then db.refuse .tooLarge
      else
        db.transact call (writeSuppressionProgram rows remove now) fun _ => .written
  | .deleteMessages identity peer now =>
      if call.busy then db.refuse .busy
      else
        db.deleteScoped call
          { identity := identity, peer := peer, thread := none, ids := none }
          now
  | .deleteThread identity peer thread now =>
      db.deleteScoped call
        { identity := identity
          peer := some peer
          thread := some thread
          ids := none }
        now
  | .deleteSelected identity peer ids now =>
      if maxSelectedDeletion < ids.length then db.refuse .tooLarge
      else
        db.deleteScoped call
          { identity := identity
            peer := some peer
            thread := none
            ids := some ids }
          now
  | .deleteGameSession identity session now =>
      if call.busy then db.refuse .busy
      else
        -- A session that goes on is left without a commit.
        let call := if isTerminalSession db identity session then call
          else
            { call with
              circumstances :=
                { call.circumstances with commit := .done } }
        db.transact call (deleteGameSessionProgram identity session now) .session
  | .elsewhere change =>
      let changed := { db with app := change db.app }
      { result := .ok .changed, tables := changed, landed := some .changed }

end AdmissionDb

end Ratspeak
