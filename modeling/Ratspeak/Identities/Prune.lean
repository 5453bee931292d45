import Ratspeak.Library.Bytes
import Ratspeak.Library.FiniteMap
import Ratspeak.Library.Runs

/-!
# Pruning of known identities

A manager of one user identity knows the keys of other identities.  A pass
that prunes them holds the persistence turn.  Inside one transaction of the
activity rows it takes the stale identities out of the manager, writes the
manager's file, and deletes their rows; when the transaction fails, it puts
back what it took out and writes the file again.

The manager may learn keys between any two steps, and it may be dropped and
another one be loaded from its file and installed.  The activity rows are one
table of a database whose transactions are atomic: others write to it only
while no transaction of a pass is open.
-/

namespace Ratspeak.Identities

open Library

abbrev DestHash := Bytes 16
abbrev PublicKey := Bytes 64
abbrev KnownIdentities := FiniteMap DestHash PublicKey

/-! ## The file -/

/-- Records of a hash and a key. -/
def knownIdentitiesBlob (known : KnownIdentities) : List UInt8 :=
  (FiniteMap.bindings known).flatMap fun entry =>
    entry.1.val ++ entry.2.val

/-- The record at the start. -/
def readRecord (data : List UInt8) : Option (DestHash × PublicKey) := do
  let hash ← Bytes.ofList 16 (data.take 16)
  let key ← Bytes.ofList 64 ((data.drop 16).take 64)
  return (hash, key)

def readRecords :
    Nat → List UInt8 → KnownIdentities → KnownIdentities
  | 0, _, known => known
  | fuel + 1, data, known =>
      match readRecord data with
      | none => known
      | some entry => readRecords fuel (data.drop 80) (known.insert entry.1 entry.2)

/-- The identities in a file; an incomplete record at its end is left out. -/
def loadKnownIdentities (data : List UInt8) : KnownIdentities :=
  readRecords data.length data ∅

/-! ## The manager -/

structure KnownIdentitiesSnapshot where
  identityHash : String
  revision : UInt64
  bytes : List UInt8

structure LxmfManager where
  identityHash : String
  knownIdentities : KnownIdentities
  knownIdentitiesRevision : UInt64
  knownIdentitiesPersistedRevision : UInt64

namespace LxmfManager

def loadOrCreate (identityHash : String) (data : List UInt8) :
    LxmfManager where
  identityHash := identityHash
  knownIdentities := loadKnownIdentities data
  knownIdentitiesRevision := 0
  knownIdentitiesPersistedRevision := 0

def knownIdentitiesSnapshot (manager : LxmfManager) :
    KnownIdentitiesSnapshot where
  identityHash := manager.identityHash
  revision := manager.knownIdentitiesRevision
  bytes := knownIdentitiesBlob manager.knownIdentities

def knownIdentitiesDirty (manager : LxmfManager) : Bool :=
  manager.knownIdentitiesRevision ≠ manager.knownIdentitiesPersistedRevision

def acknowledgeKnownIdentitiesSnapshot (manager : LxmfManager)
    (snapshot : KnownIdentitiesSnapshot) : LxmfManager :=
  if manager.identityHash = snapshot.identityHash ∧
      manager.knownIdentitiesRevision = snapshot.revision then
    { manager with knownIdentitiesPersistedRevision := snapshot.revision }
  else manager

/-- A new map under the next revision, if it was changed. -/
def revised (manager : LxmfManager) (known : KnownIdentities) (changed : Bool) : LxmfManager :=
  { manager with
    knownIdentities := known
    knownIdentitiesRevision :=
      if changed then manager.knownIdentitiesRevision + 1
      else manager.knownIdentitiesRevision }

/-- The identities that were known among some hashes. -/
def removedIdentities (manager : LxmfManager) (hashes : List DestHash) :
    List (DestHash × PublicKey) :=
  hashes.dedup.filterMap fun hash =>
    (manager.knownIdentities.lookup hash).map fun key => (hash, key)

def removeKnownIdentities (manager : LxmfManager) (hashes : List DestHash) : LxmfManager :=
  manager.revised
    (FiniteMap.retain (fun hash _ => !decide (hash ∈ hashes))
      manager.knownIdentities)
    (!(manager.removedIdentities hashes).isEmpty)

def restoreEntry (known : KnownIdentities × Bool)
    (entry : DestHash × PublicKey) : KnownIdentities × Bool :=
  if known.1.lookup entry.1 = some entry.2 then known
  else (known.1.insert entry.1 entry.2, true)

def restoreKnownIdentities (manager : LxmfManager)
    (entries : List (DestHash × PublicKey)) : LxmfManager :=
  let restored := entries.foldl restoreEntry (manager.knownIdentities, false)
  manager.revised restored.1 restored.2

/-- What an announce teaches. -/
def updateRemoteCrypto (manager : LxmfManager) (hash : DestHash)
    (key : PublicKey) : LxmfManager :=
  if manager.knownIdentities.lookup hash = some key then manager
  else manager.revised (manager.knownIdentities.insert hash key) true

end LxmfManager

/-! ## The persistence turn -/

/-- A snapshot, with the number of the manager that it was taken of. -/
structure Taken where
  snapshot : KnownIdentitiesSnapshot
  session : Nat

/-- What a pass took out of the manager. -/
structure Held where
  eligible : List DestHash
  removed : List (DestHash × PublicKey)
  taken : Taken
  /-- What was known before. -/
  before : KnownIdentities

structure Pass where
  victims : List DestHash
  cutoff : Int
  protectedExtra : List DestHash

/-- How far the owner of the turn is: a pass, or a save of the manager's file,
which is that of a failed pass or of a checkpoint. -/
inductive Turn where
  | free
  | queued (pass : Pass)
  | validated (pass : Pass) (eligible : List DestHash)
  | removed (pass : Pass) (held : Held)
  | persisted (pass : Pass) (eligible : List DestHash) (held : Option Held)
  | committed (held : Option Held)
  | failed (held : Option Held)
  | restored (held : Held)
  | saving (rollback : Option Held) (taken : Taken)
  | saved (rollback : Option Held) (taken : Taken)
  | rolledBack (held : Option Held)

/-- The transaction of a pass is open. -/
def Turn.inTransaction : Turn → Bool
  | .validated _ _ => true
  | .removed _ _ => true
  | .persisted _ _ _ => true
  | _ => false

structure World where
  lxmf : Option LxmfManager
  /-- The number of the manager that was installed last. -/
  session : Nat
  loading : Option LxmfManager
  files : String → List UInt8
  rows : FiniteMap DestHash Int
  /-- Contacts, blocked contacts, peers of messages and propagation nodes. -/
  guarded : List DestHash
  turn : Turn
  /-- The rows that there would be without the pass. -/
  expectedRows : FiniteMap DestHash Int
  /-- The newest key learned for each identity known before the removal or
  heard since. -/
  newest : DestHash → Option PublicKey
  heard : List DestHash
  /-- What each user identity has ever heard. -/
  learned : List (String × DestHash × PublicKey)

inductive WriteOutcome where
  | written
  | failed
  /-- Written, but reported as failed. -/
  | unsure
  deriving DecidableEq

inductive PruneEvent where
  | announce (hash : DestHash) (key : PublicKey)
  | writeRows (change : FiniteMap DestHash Int → FiniteMap DestHash Int)
      (guarded : List DestHash)
  | drop
  | load (identityHash : String)
  | install
  | begin (pass : Pass)
  | validate
  | beforeDelete (busy : Bool)
  | write (outcome : WriteOutcome)
  | fail
  | commit
  | acknowledge (busy : Bool)
  | restore
  | capture
  | checkpoint
  | release

namespace World

/-! ## Steps -/

def announce (world : World) (hash : DestHash) (key : PublicKey) : World :=
  match world.lxmf with
  | none => world
  | some manager =>
      { world with
        lxmf := some (manager.updateRemoteCrypto hash key)
        newest := Function.update world.newest hash (some key)
        heard := hash :: world.heard
        learned := (manager.identityHash, hash, key) :: world.learned }

def writeRows (world : World) (change : FiniteMap DestHash Int → FiniteMap DestHash Int)
    (guarded : List DestHash) : World :=
  if world.turn.inTransaction then world
  else
    { world with
      rows := change world.rows
      expectedRows := change world.expectedRows
      guarded := guarded }

/-- A manager is loaded after the one before was dropped. -/
def load (world : World) (identityHash : String) : World :=
  if world.lxmf.isSome then world
  else
    { world with
      loading := some (.loadOrCreate identityHash (world.files identityHash)) }

def install (world : World) : World :=
  match world.loading with
  | none => world
  | some manager =>
      { world with
        lxmf := some manager
        loading := none
        session := world.session + 1 }

/-- The victim is still stale, and nothing protects it. -/
def isEligible (world : World) (cutoff : Int) (hash : DestHash) : Bool :=
  (world.rows.lookup hash).any (fun seen => seen < cutoff) &&
    !decide (hash ∈ world.guarded)

def validate (world : World) : World :=
  match world.turn with
  | .queued pass =>
      let candidates := pass.victims.filter fun hash =>
        !decide (hash ∈ pass.protectedExtra)
      { world with
        turn := if candidates.isEmpty then .committed none
          else .validated pass (candidates.filter (world.isEligible pass.cutoff)) }
  | _ => world

/-- The callback inside the transaction, up to the write of the file. -/
def beforeDelete (world : World) (busy : Bool) : World :=
  match world.turn with
  | .validated pass eligible =>
      if eligible.isEmpty then
        { world with turn := .persisted pass [] none }
      else if busy then { world with turn := .failed none }
      else
        match world.lxmf with
        | none => { world with turn := .failed none }
        | some manager =>
            let pruned := manager.removeKnownIdentities eligible
            { world with
              lxmf := some pruned
              turn := .removed pass
                { eligible := eligible
                  removed := manager.removedIdentities eligible
                  taken :=
                    { snapshot := pruned.knownIdentitiesSnapshot
                      session := world.session }
                  before := manager.knownIdentities }
              newest := manager.knownIdentities.lookup
              heard := [] }
  | _ => world

/-- The files after a write that ends in some way. -/
def written (world : World) (snapshot : KnownIdentitiesSnapshot)
    (outcome : WriteOutcome) : String → List UInt8 :=
  match outcome with
  | .failed => world.files
  | _ => Function.update world.files snapshot.identityHash snapshot.bytes

/-- Where a save ends. -/
def afterSave : Option Held → Turn
  | none => .free
  | some held => .rolledBack (some held)

def write (world : World) (outcome : WriteOutcome) : World :=
  match world.turn with
  | .removed pass held =>
      { world with
        files := world.written held.taken.snapshot outcome
        turn := if outcome = .written then
            .persisted pass held.eligible (some held)
          else .failed (some held) }
  | .saving rollback taken =>
      { world with
        files := world.written taken.snapshot outcome
        turn := if outcome = .written then .saved rollback taken
          else afterSave rollback }
  | _ => world

/-- The transaction fails, or its worker does. -/
def fail (world : World) : World :=
  match world.turn with
  | .queued _ => { world with turn := .failed none }
  | .validated _ _ => { world with turn := .failed none }
  | .removed _ held => { world with turn := .failed (some held) }
  | .persisted _ _ held => { world with turn := .failed held }
  | _ => world

def commit (world : World) : World :=
  match world.turn with
  | .persisted _ eligible held =>
      { world with
        rows := FiniteMap.retain (fun hash _ => !decide (hash ∈ eligible)) world.rows
        turn := .committed held }
  | _ => world

/-- After a commit the manager may be busy. -/
def acknowledge (world : World) (busy : Bool) : World :=
  match world.turn with
  | .committed none => { world with turn := .free }
  | .committed (some held) =>
      { world with
        lxmf := if busy then world.lxmf
          else world.lxmf.map fun manager =>
            manager.acknowledgeKnownIdentitiesSnapshot held.taken.snapshot
        turn := .free }
  | .saved rollback taken =>
      { world with
        lxmf := world.lxmf.map fun manager =>
          manager.acknowledgeKnownIdentitiesSnapshot taken.snapshot
        turn := afterSave rollback }
  | _ => world

def restore (world : World) : World :=
  match world.turn with
  | .failed none => { world with turn := .rolledBack none }
  | .failed (some held) =>
      if held.removed.isEmpty then
        { world with turn := .rolledBack (some held) }
      else
        { world with
          lxmf := world.lxmf.map fun manager =>
            manager.restoreKnownIdentities held.removed
          turn := .restored held }
  | _ => world

/-- Take a snapshot to save, if there is a manager. -/
def snapshotFor (world : World) (rollback : Option Held) : World :=
  match world.lxmf with
  | none => { world with turn := afterSave rollback }
  | some manager =>
      { world with
        turn := .saving rollback
          { snapshot := manager.knownIdentitiesSnapshot
            session := world.session } }

def step (world : World) : PruneEvent → World
  | .announce hash key => world.announce hash key
  | .writeRows change guarded => world.writeRows change guarded
  | .drop => { world with lxmf := none }
  | .load identityHash => world.load identityHash
  | .install => world.install
  | .begin pass =>
      match world.turn with
      | .free => { world with turn := .queued pass, expectedRows := world.rows }
      | _ => world
  | .validate => world.validate
  | .beforeDelete busy => world.beforeDelete busy
  | .write outcome => world.write outcome
  | .fail => world.fail
  | .commit => world.commit
  | .acknowledge busy => world.acknowledge busy
  | .restore => world.restore
  | .capture =>
      match world.turn with
      | .restored held => world.snapshotFor (some held)
      | _ => world
  | .checkpoint =>
      match world.turn with
      | .free => world.snapshotFor none
      | _ => world
  | .release =>
      match world.turn with
      | .rolledBack _ => { world with turn := .free }
      | _ => world

end World

end Ratspeak.Identities
