import Mathlib.Data.List.Sort
import Ratspeak.Database.ExactlyOnce
import Ratspeak.Library.Attempts
import Ratspeak.Library.Chunks
import Ratspeak.Library.Decimal
import Ratspeak.Library.MessagePack

/-!
# Suppressed downloads

A download that failed is not tried again before its time.  What is known of
such failures is kept as records, which the client holds in a ledger and which
are stored as MessagePack arrays: the rows of a node that the ledger no longer
has are removed and the others written, in batches.

The MessagePack library and the ledger are those of other packages.  Of the
library the accessors of values, the writer, the reader and the check of the
structure of encoded bytes are given.  Each batch reads the clock anew and
meets with circumstances of its own.
-/

namespace Ratspeak

open Library Library.MessagePack

inductive SuppressionReason where
  | malformed
  | wrongDestination
  | invalidSignature
  | invalidStamp
  | decryptionFailed
  | tooLarge
  | missingKey
  | storageUnavailable
  | storageBusy
  | quota
  | workerUnavailable
  | dispositionLedgerFull
  | cancelled
  deriving DecidableEq, Repr

/-- The reasons in the order of their numbers. -/
def suppressionReasons : List SuppressionReason :=
  [.malformed, .wrongDestination, .invalidSignature, .invalidStamp,
    .decryptionFailed, .tooLarge, .missingKey, .storageUnavailable,
    .storageBusy, .quota, .workerUnavailable, .dispositionLedgerFull,
    .cancelled]

structure AdmissionScope where
  identity : Bytes 16
  node : NodeHash
  transientId : TransientId
  deriving DecidableEq

structure AdmissionEpochs where
  policy : Bytes 32
  keys : Bytes 32
  budget : Bytes 32
  storageHealth : Bytes 32
  deriving DecidableEq

structure SuppressionRecord where
  scope : AdmissionScope
  reason : SuppressionReason
  epochs : AdmissionEpochs
  attempts : UInt16
  lastFailure : UInt64
  nextRetry : UInt64
  expiresAt : UInt64
  deriving DecidableEq

def suppressionSeconds : Nat := 30 * 86400

/-- At least one attempt, ordered times, and a lifetime of thirty days. -/
structure SuppressionRecord.Valid (record : SuppressionRecord) : Prop where
  attempted : 1 ≤ record.attempts.toNat
  ordered : record.lastFailure.toNat ≤ record.nextRetry.toNat
  lives : record.lastFailure.toNat < record.expiresAt.toNat
  limited : record.expiresAt.toNat ≤ record.lastFailure.toNat + suppressionSeconds

/-- What is used of the MessagePack library. -/
structure Rmpv (Value : Type) where
  array : List Value → Value
  unsigned : UInt64 → Value
  binary : List UInt8 → Value
  asArray : Value → Option (List Value)
  asU64 : Value → Option UInt64
  asSlice : Value → Option (List UInt8)
  writeValue : Value → Except String (List UInt8)
  readValue : List UInt8 → Except String Value
  encodedFieldValue : List UInt8 → Except String Unit

/-- The errors of other libraries. -/
def storage {Value : Type} (result : Except String Value) :
    Except AdmissionDbError Value :=
  result.mapError .unavailable

/-! ## Records -/

section

variable {Value : Type} (rmpv : Rmpv Value)

def suppressionValue (record : SuppressionRecord) (reason : Nat) : Value :=
  rmpv.array
    [rmpv.unsigned 1,
      rmpv.binary record.scope.identity.val,
      rmpv.binary record.scope.node.val,
      rmpv.binary record.scope.transientId.val,
      rmpv.unsigned (UInt64.ofNat reason),
      rmpv.binary record.epochs.policy.val,
      rmpv.binary record.epochs.keys.val,
      rmpv.binary record.epochs.budget.val,
      rmpv.binary record.epochs.storageHealth.val,
      rmpv.unsigned record.attempts.toUInt64,
      rmpv.unsigned record.lastFailure,
      rmpv.unsigned record.nextRetry,
      rmpv.unsigned record.expiresAt]

def encodeSuppression (record : SuppressionRecord) :
    Except AdmissionDbError (List UInt8) := do
  let reason ← okOr
    (suppressionReasons.findIdx? fun reason => reason = record.reason)
    .missingEffect
  let encoded ← storage (rmpv.writeValue (suppressionValue rmpv record reason))
  refuseIf (512 < encoded.length) .tooLarge
  return encoded

def integer (array : List Value) (index : Nat) :
    Except AdmissionDbError UInt64 :=
  okOr ((array[index]?).bind rmpv.asU64) .missingEffect

def binary (length : Nat) (array : List Value) (index : Nat) :
    Except AdmissionDbError (Bytes length) :=
  okOr (((array[index]?).bind rmpv.asSlice).bind (Bytes.ofList length)) .missingEffect

def u16TryFrom (number : UInt64) : Except String UInt16 :=
  if number.toNat < 65536 then .ok number.toUInt16
  else .error "out of range integral type conversion attempted"

/-- The record that an array holds, whatever its times. -/
def suppressionFields (array : List Value) :
    Except AdmissionDbError SuppressionRecord := do
  let version ← integer rmpv array 0
  refuseIf (version ≠ 1) .missingEffect
  let index ← integer rmpv array 4
  let reason ← okOr (suppressionReasons[index.toNat]?) .missingEffect
  let identity ← binary rmpv 16 array 1
  let node ← binary rmpv 16 array 2
  let transientId ← binary rmpv 32 array 3
  let policy ← binary rmpv 32 array 5
  let keys ← binary rmpv 32 array 6
  let budget ← binary rmpv 32 array 7
  let storageHealth ← binary rmpv 32 array 8
  let count ← integer rmpv array 9
  let attempts ← storage (u16TryFrom count)
  let lastFailure ← integer rmpv array 10
  let nextRetry ← integer rmpv array 11
  let expiresAt ← integer rmpv array 12
  return { scope := { identity, node, transientId }
           reason
           epochs := { policy, keys, budget, storageHealth }
           attempts
           lastFailure
           nextRetry
           expiresAt }

def decodeSuppression (encoded : List UInt8) :
    Except AdmissionDbError SuppressionRecord := do
  refuseIf (512 < encoded.length) .missingEffect
  storage (rmpv.encodedFieldValue encoded)
  let value ← storage (rmpv.readValue encoded)
  let array ← okOr
    ((rmpv.asArray value).filter fun array => array.length = 13)
    .missingEffect
  let record ← suppressionFields rmpv array
  refuseIf
    (record.attempts.toNat = 0 ∨
      record.nextRetry.toNat < record.lastFailure.toNat ∨
      record.expiresAt.toNat ≤ record.lastFailure.toNat ∨
      saturatingAdd record.lastFailure.toNat suppressionSeconds < record.expiresAt.toNat)
    .missingEffect
  return record

end

/-! ## The ledger of the client -/

/-- At most one record of each scope. -/
structure SuppressionLedger where
  records : List SuppressionRecord
  distinct : (records.map SuppressionRecord.scope).Nodup

def SuppressionLedger.get (ledger : SuppressionLedger)
    (scope : AdmissionScope) : Option SuppressionRecord :=
  ledger.records.find? fun record => record.scope = scope

structure DownloadSuppressionSnapshot where
  identity : Bytes 16
  node : NodeHash
  ledger : SuppressionLedger

/-! ## The stored rows -/

/-- The rows are read by node and transient id. -/
def suppressionPrecedes (first second : SuppressionKey × SuppressionRow) :
    Prop :=
  first.1.2.1.val ++ first.1.2.2.val ≤ second.1.2.1.val ++ second.1.2.2.val

instance : DecidableRel suppressionPrecedes := fun first second =>
  inferInstanceAs (Decidable (first.1.2.1.val ++ first.1.2.2.val ≤
    second.1.2.1.val ++ second.1.2.2.val))

def suppressionSelected (db : AdmissionDb) (identity : String) (now : Nat) :
    List (SuppressionKey × SuppressionRow) :=
  (FiniteMap.bindings db.suppression).filter fun entry =>
    entry.1.1 = identity && now < entry.2.expiresAt

/-- The records of an identity that have not expired, unless they cannot be
read; one that is too long reads as missing. -/
def suppressionRows (fails : Option AdmissionDbError) (db : AdmissionDb)
    (identity : String) (now : Nat) :
    Except AdmissionDbError (List (List UInt8)) :=
  match fails with
  | some failure => .error failure
  | none =>
      let rows :=
        (((suppressionSelected db identity now).insertionSort
          suppressionPrecedes).take 16385).map fun entry => entry.2.encoded
      if rows.any fun row => 512 < row.length then
        .error (.unavailable
          ("Invalid column type Null at index: 0, name: " ++
            "CASE WHEN length(record)<=512 THEN record END"))
      else if 16384 < rows.length then .error .ledgerFull
      else .ok rows

/-! ## Storing a snapshot -/

/-- How the reading of the rows fares, and how each batch does. -/
structure PersistTurns where
  rowsFail : Option AdmissionDbError
  rowsNow : Nat
  call : Nat → AdmissionDbCall
  now : Nat → Nat

/-- The database, and the number of batches so far. -/
structure Persisting where
  db : AdmissionDb
  turn : Nat

abbrev PersistProgram := Program Persisting AdmissionDbError

/-- A result that was computed, or the failure to do so. -/
def ofResult {Result : Type} :
    Except AdmissionDbError Result → PersistProgram Result
  | .ok result => pure result
  | .error failure => throw failure

def writeSuppression (turns : PersistTurns) (rows : List SuppressionRow)
    (remove : List SuppressionKey) : PersistProgram AdmissionDbAnswer := do
  let state ← get
  let performed := state.db.perform (turns.call state.turn)
    (.writeSuppression rows remove (turns.now state.turn))
  modify fun _ => { db := performed.tables, turn := state.turn + 1 }
  ofResult performed.result

def writeRemovals (turns : PersistTurns) :
    List (List SuppressionKey) → PersistProgram PUnit
  | [] => pure ()
  | batch :: rest => do
      let _ ← writeSuppression turns [] batch
      writeRemovals turns rest

section

variable {Value : Type} (rmpv : Rmpv Value)

def suppressionRow (identity : String) (record : SuppressionRecord)
    (encoded : List UInt8) : SuppressionRow where
  identity := identity
  node := record.scope.node
  transientId := record.scope.transientId
  encoded := encoded
  expiresAt := record.expiresAt.toNat

/-- Fill a batch with the records, and write it whenever it is full. -/
def writeRecords (turns : PersistTurns) (identity : String) :
    List SuppressionRow → List SuppressionRecord → PersistProgram PUnit
  | batch, [] =>
      if batch.isEmpty then pure ()
      else do
        let _ ← writeSuppression turns batch []
        pure ()
  | batch, record :: rest => do
      let encoded ← ofResult (encodeSuppression rmpv record)
      let filled := batch ++ [suppressionRow identity record encoded]
      if filled.length = 256 then do
        let _ ← writeSuppression turns filled []
        writeRecords turns identity [] rest
      else writeRecords turns identity filled rest

/-- The stored records of the node that the ledger no longer has. -/
def removedRecords (snapshot : DownloadSuppressionSnapshot)
    (old : List SuppressionRecord) : List SuppressionKey :=
  (old.filter fun record =>
    record.scope.node = snapshot.node &&
      (snapshot.ledger.get record.scope).isNone).map fun record =>
        (hexEncode snapshot.identity.val, record.scope.node, record.scope.transientId)

/-- The records of the ledger for the identity and the node. -/
def snapshotRecords (snapshot : DownloadSuppressionSnapshot) :
    List SuppressionRecord :=
  snapshot.ledger.records.filter fun record =>
    record.scope.identity = snapshot.identity && record.scope.node = snapshot.node

def persistProgram (turns : PersistTurns)
    (snapshot : DownloadSuppressionSnapshot) : PersistProgram PUnit := do
  let state ← get
  let identity := hexEncode snapshot.identity.val
  let rows ← ofResult (suppressionRows turns.rowsFail state.db identity turns.rowsNow)
  let old ← ofResult (rows.mapM (decodeSuppression rmpv))
  let remove := removedRecords snapshot old
  writeRemovals turns (chunksOf 256 remove.length remove)
  writeRecords rmpv turns identity [] (snapshotRecords snapshot)

def persistSuppression (turns : PersistTurns)
    (snapshot : DownloadSuppressionSnapshot) (db : AdmissionDb) :
    Except AdmissionDbError PUnit × Persisting :=
  (persistProgram rmpv turns snapshot).exec { db := db, turn := 0 }

end

/-- One batch of the removal of all rows of a node. -/
def clearSuppressionProgram (identity : String) (node : NodeHash) :
    AdmissionTx PUnit :=
  Tx.execute fun db =>
    { db with
      suppression := AdmissionDb.deleteSome 256
        (fun key _ => key.1 = identity && key.2.1 = node)
        db.suppression }

end Ratspeak
