import Ratspeak.Library.Attempts
import Ratspeak.Library.Bytes
import Ratspeak.Library.FiniteMap
import Ratspeak.Library.Text

/-!
# Changing who owns the network

A profile runs its own network stack or uses an existing one on the same
machine, whose key is kept in protected storage under an identifier that the
settings refer to.  A change stages the key, stops the old runtime, starts the
new one under a proposed selection and commits the settings last; where a step
fails the earlier ones are compensated.

What the surroundings do at each step is given: whether a setting can be read,
what the storage keeps, whether a runtime stops and starts.  From the first
stop on, a step may also unwind, and then only the guard of the transition
runs.
-/

namespace Ratspeak.Network

open Library

inductive LocalEndpoint where
  | tcp (packetPort controlPort : UInt16)
  | unix (instanceName : String)
  deriving DecidableEq

inductive Ownership where
  | managed
  | existing
  deriving DecidableEq

structure Selection where
  mode : Ownership
  share : Bool
  endpoint : Option LocalEndpoint
  credentialRef : Option String
  deriving DecidableEq

structure NetworkRequest where
  mode : Ownership
  share : Bool
  endpoint : Option LocalEndpoint
  rpcKey : Option String

/-- The key of a shared instance, with its endpoint. -/
structure SharedInstanceCredentials where
  endpoint : LocalEndpoint
  key : List UInt8

/-- What the settings hold for a profile. -/
inductive SavedSelection where
  | absent
  | invalid
  | valid (selection : Selection)
  deriving DecidableEq

/-- An unlocked identity, and whether it lives on a hardware token. -/
structure UnlockedIdentity where
  hash : String
  hardware : Bool
  deriving DecidableEq

structure NetworkSession where
  proposed : Option (String × Selection × Option SharedInstanceCredentials)
  error : Option String
  retainedIdentity : Option UnlockedIdentity

/-- The settings by profile, the protected storage, the session and the
identities that were locked. -/
structure NetworkState where
  settings : String → SavedSelection
  credentials : FiniteMap String (List UInt8)
  session : NetworkSession
  locked : List UnlockedIdentity

/-- How a step goes after the guard is armed. -/
inductive Attempt where
  | succeeds
  | fails
  | unwinds
  deriving DecidableEq

/-- How a runtime starts. -/
inductive StartAttempt where
  | succeeds
  | fails (error : String)
  | unwinds

/-- What the surroundings do during one change. -/
structure Surroundings where
  /-- The active identity when the change is asked for, and when it begins. -/
  identity : String
  identityLater : String
  generationChanged : Bool
  developerMode : Bool
  settingsRead : Bool
  unlocked : Option UnlockedIdentity
  settingsReadAgain : Bool
  android : Bool
  /-- What is wrong with an endpoint, a key and a connection. -/
  invalidEndpoint : LocalEndpoint → Option String
  invalidKey : LocalEndpoint → List UInt8 → Option String
  refused : LocalEndpoint → List UInt8 → Option String
  credentialRead : Bool
  freshId : String
  /-- What the storage keeps of a key that is written. -/
  written : Option (List UInt8)
  writeError : String
  readBack : Bool
  removedUnverified : Bool
  stopped : Attempt
  removedUnstarted : Bool
  started : StartAttempt
  committed : Attempt
  stoppedAgain : Attempt
  restored : Attempt
  removedStaged : Attempt
  removedPrevious : Bool

def storageError : String :=
  "Protected credential storage is unavailable or locked. Unlock your system keychain and try again. No key was saved in plaintext."

def unremoved : String :=
  " An unused credential could not be removed from protected storage."

/-! ## Before anything is written -/

def profileKey (identity : String) : Except String String :=
  if identity = "" then
    .error "Unlock or select an identity before changing network ownership."
  else .ok ("network_ownership.v1." ++ identity)

def saved (state : NetworkState) (profile : String) (readable : Bool) :
    Except String (Option Selection) :=
  if !readable then .error "Cannot read network ownership settings"
  else
    match state.settings profile with
    | .absent => .ok none
    | .invalid => .error "Network ownership settings are invalid; choose a mode again."
    | .valid selection => .ok (some selection)

/-- An endpoint that the platform can use. -/
def LocalEndpoint.runtime (endpoint : LocalEndpoint) (around : Surroundings) :
    Except String LocalEndpoint :=
  match endpoint, around.android with
  | .unix _, true =>
      .error "Use TCP sharing for another Android app; its Unix socket is not an accessible cross-app service."
  | endpoint, _ =>
      match around.invalidEndpoint endpoint with
      | some error => .error error
      | none => .ok endpoint

def newCredentials (endpoint : LocalEndpoint) (key : List UInt8)
    (around : Surroundings) : Except String SharedInstanceCredentials :=
  match around.invalidKey endpoint key with
  | some error => .error error
  | none => .ok ⟨endpoint, key⟩

/-- Read a key of the protected storage. -/
def readKey (state : NetworkState) (id : String) (around : Surroundings) :
    Except String (List UInt8) :=
  if around.credentialRead then okOr (state.credentials.lookup id) storageError
  else .error storageError

def readCredentials (state : NetworkState) (selection : Selection)
    (around : Surroundings) : Except String SharedInstanceCredentials := do
  let chosen ← okOr selection.endpoint "Select the existing local service endpoints"
  let endpoint ← chosen.runtime around
  let id ← okOr selection.credentialRef "Enter the existing instance's RPC key"
  let key ← readKey state id around
  newCredentials endpoint key around

def decodeKey (input : String) : Except String (List UInt8) := do
  let value := trim input
  refuseIf
    (value = "" ∨ value.utf8ByteSize > 2048 ∨ value.utf8ByteSize % 2 ≠ 0)
    "RPC key must be 1–1024 bytes written as hexadecimal."
  okOr (hexDecode value) "RPC key must contain only hexadecimal digits."

/-- What a request comes to. -/
structure Prepared where
  selection : Selection
  credentials : Option SharedInstanceCredentials
  newKey : Option (List UInt8)

/-- The reference of the saved selection. -/
def savedReference (state : NetworkState) (around : Surroundings) :
    Except String (Option String) := do
  let profile ← profileKey around.identityLater
  let selection ← saved state profile around.settingsReadAgain
  return selection.bind Selection.credentialRef

/-- The selection of a request, with the key that it brings or the one that
is referred to already. -/
def existingCredentials (state : NetworkState) (request : NetworkRequest)
    (endpoint : LocalEndpoint) (supplied : Option (List UInt8)) (around : Surroundings) :
    Except String (Selection × SharedInstanceCredentials) :=
  let selection : Selection :=
    ⟨request.mode, request.share, request.endpoint, none⟩
  match supplied with
  | some key => do
      let credentials ← newCredentials endpoint key around
      return (selection, credentials)
  | none => do
      let reference ← savedReference state around
      let credentials ← readCredentials state
        { selection with credentialRef := reference } around
      return ({ selection with credentialRef := reference }, credentials)

def prepareExisting (state : NetworkState) (request : NetworkRequest)
    (supplied : Option (List UInt8)) (around : Surroundings) :
    Except String Prepared := do
  refuseIf (request.share = true)
    "An existing-instance client cannot also host a shared instance."
  let chosen ← okOr request.endpoint "Choose the existing instance endpoints"
  let endpoint ← chosen.runtime around
  let known ← existingCredentials state request endpoint supplied around
  match around.refused known.2.endpoint known.2.key with
  | some error => .error (error ++ ". The current network has not been changed.")
  | none => .ok ⟨known.1, some known.2, supplied⟩

def suppliedKey (request : NetworkRequest) :
    Except String (Option (List UInt8)) :=
  match request.rpcKey with
  | none => .ok none
  | some input => (decodeKey input).map some

def prepare (state : NetworkState) (request : NetworkRequest)
    (around : Surroundings) : Except String Prepared := do
  let supplied ← suppliedKey request
  if request.mode = .managed then
    if supplied.isSome then
      .error "A managed stack does not use another instance's key."
    else .ok ⟨⟨.managed, request.share, none, none⟩, none, none⟩
  else prepareExisting state request supplied around

/-- A change that may begin. -/
structure Checked where
  profile : String
  previous : Option Selection
  retained : UnlockedIdentity
  prepared : Prepared

/-- Everything up to the first write. -/
def check (state : NetworkState) (request : NetworkRequest)
    (around : Surroundings) : Except String Checked := do
  let requested ← profileKey around.identity
  let profile ← profileKey around.identityLater
  refuseIf (profile ≠ requested ∨ around.generationChanged = true)
    "The identity changed while this request was waiting. Review its network settings and try again."
  refuseIf (around.developerMode = false)
    "Enable Developer Mode in Settings to change network ownership."
  let previous ← saved state requested around.settingsRead
  let retained ← okOr around.unlocked
    "Unlock the active identity before changing its network ownership."
  let prepared ← prepare state request around
  return ⟨requested, previous, retained, prepared⟩

/-! ## Staging the key -/

/-- Write a key and read it back. -/
def stageKey (credentials : FiniteMap String (List UInt8))
    (key : List UInt8) (around : Surroundings) :
    FiniteMap String (List UInt8) × Except String String :=
  match around.written with
  | none => (credentials, .error around.writeError)
  | some kept =>
      let written := credentials.insert around.freshId kept
      if around.readBack ∧ kept = key then (written, .ok around.freshId)
      else
        (if around.removedUnverified then written.erase around.freshId
          else written,
          .error "Protected storage could not verify the saved key. The current network has not changed.")

/-! ## The transition -/

/-- What a change comes to. -/
inductive ChangeOutcome where
  /-- The snapshot that is returned shows an error of the session. -/
  | changed (error : Option String)
  | failed (message : String)
  | unwound
  deriving DecidableEq

namespace NetworkState

def setProposed (state : NetworkState) (proposed : Option
      (String × Selection × Option SharedInstanceCredentials)) :
    NetworkState :=
  { state with session := { state.session with proposed := proposed } }

def setError (state : NetworkState) (error : Option String) : NetworkState :=
  { state with session := { state.session with error := error } }

def setRetained (state : NetworkState) (retained : Option UnlockedIdentity) : NetworkState :=
  { state with session := { state.session with retainedIdentity := retained } }

/-- Drop the retained identity; one on a hardware token is locked if asked
for. -/
def releaseRetained (state : NetworkState) (lock : Bool) : NetworkState :=
  match state.session.retainedIdentity with
  | some identity =>
      let released := state.setRetained none
      if lock ∧ identity.hardware then
        { released with locked := released.locked ++ [identity] }
      else released
  | none => state

/-- Remove a credential, if there is one to remove and it can be removed. -/
def removeCredential (state : NetworkState) (id : Option String)
    (removed : Bool) : NetworkState :=
  match id with
  | some id =>
      if removed then
        { state with credentials := state.credentials.erase id }
      else state
  | none => state

end NetworkState

/-- The guard of a transition that unwinds. -/
def dropGuard (state : NetworkState) : NetworkState :=
  ((state.setProposed none).releaseRetained true).setError
    (some "Network change was interrupted. The last committed selection is retained; restart the network before retrying.")

/-- Nothing was left to remove, or it was removed. -/
def cleaned (staged : Option String) (removed : Bool) : Bool :=
  staged.isNone || removed

/-- Undo a change that failed after the old runtime was stopped. -/
def rollBack (state : NetworkState) (staged : Option String) (error : String)
    (around : Surroundings) : NetworkState × ChangeOutcome :=
  if around.stoppedAgain = .unwinds then (dropGuard state, .unwound)
  else
    let stopped := around.stoppedAgain = .succeeds
    let unproposed := state.setProposed none
    if stopped ∧ around.restored = .unwinds then
      (dropGuard unproposed, .unwound)
    else
      let restored := stopped ∧ around.restored = .succeeds
      let released := unproposed.releaseRetained (!restored)
      if staged.isSome ∧ around.removedStaged = .unwinds then
        (dropGuard released, .unwound)
      else
        let removed := around.removedStaged = .succeeds
        let message := error ++ " " ++
          (if restored then "The previous network selection was restored."
          else "The previous selection is still saved, but its runtime could not be restored. The network is unavailable; retry or choose another mode.") ++
          (if cleaned staged removed then "" else unremoved)
        ((released.removeCredential staged removed).setError (some message), .failed message)

/-- Start the selection that is proposed and commit it. -/
def startAndCommit (state : NetworkState) (profile : String)
    (selection : Selection) (around : Surroundings) :
    NetworkState × StartAttempt :=
  let begun := state.setError none
  match around.started with
  | .unwinds => (begun, .unwinds)
  | .fails error => (begun, .fails error)
  | .succeeds =>
      match around.committed with
      | .unwinds => (begun, .unwinds)
      | .fails => (begun, .fails "Cannot commit network settings")
      | .succeeds =>
          ({ begun with
              settings :=
                Function.update begun.settings profile (.valid selection) },
            .succeeds)

/-- A change that is committed removes the credential of the selection before
it. -/
def finish (state : NetworkState) (previous : Option Selection)
    (selection : Selection) (around : Surroundings) :
    NetworkState × ChangeOutcome :=
  let settled := (state.setProposed none).setRetained none
  let old := (previous.bind Selection.credentialRef).filter fun old =>
    some old ≠ selection.credentialRef
  let removed := settled.removeCredential old around.removedPrevious
  let told :=
    if cleaned old around.removedPrevious then removed
    else removed.setError
      (some "Network changed, but an unused credential could not be removed from protected storage.")
  (told, .changed told.session.error)

/-- The part of a change that the guard protects. -/
def transition (state : NetworkState) (checked : Checked)
    (selection : Selection) (staged : Option String)
    (around : Surroundings) : NetworkState × ChangeOutcome :=
  match around.stopped with
  | .unwinds => (dropGuard state, .unwound)
  | .fails =>
      (state.removeCredential staged around.removedUnstarted,
        .failed
          ("Could not shut down the previous runtime safely. Its network selection has not changed." ++
          if cleaned staged around.removedUnstarted then "" else unremoved))
  | .succeeds =>
      let retained := state.setRetained (some checked.retained)
      let proposed := retained.setProposed
        (some (checked.profile, selection, checked.prepared.credentials))
      match startAndCommit proposed checked.profile selection around with
      | (started, .unwinds) => (dropGuard started, .unwound)
      | (started, .fails error) => rollBack started staged error around
      | (started, .succeeds) => finish started checked.previous selection around

def apply (state : NetworkState) (request : NetworkRequest)
    (around : Surroundings) : NetworkState × ChangeOutcome :=
  match check state request around with
  | .error error => (state, .failed error)
  | .ok checked =>
      match checked.prepared.newKey with
      | none => transition state checked checked.prepared.selection none around
      | some key =>
          match stageKey state.credentials key around with
          | (credentials, .error error) =>
              ({ state with credentials := credentials }, .failed error)
          | (credentials, .ok id) =>
              transition { state with credentials := credentials } checked
                { checked.prepared.selection with credentialRef := some id }
                (some id) around

end Ratspeak.Network
