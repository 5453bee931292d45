import Ratspeak.Library.Bytes
import Ratspeak.Library.Selection

/-!
# Choosing a propagation node

The registry of discovered nodes is a map from hexadecimal hashes to loose
JSON records.  A node is eligible by what its record says of its state, its
path and the time it was last seen; the eligible ones that did not fail too
often are ranked, and the first is taken.  This is written twice: once for
all nodes, and once for those to which a path is known.

The numbers with a point are a parameter, with the operations that are used.
-/

namespace Ratspeak.Propagation

open Library

abbrev Hash := Bytes 16

structure Floats where
  F64 : Type
  less : F64 → F64 → Bool
  sub : F64 → F64 → F64
  ofInt : Int → F64

/-- A JSON value, with its numbers as the parser keeps them. -/
inductive Value (F64 : Type) where
  | null
  | bool (value : Bool)
  | posInt (value : UInt64)
  | negInt (value : Int64)
  | float (value : F64)
  | string (value : String)
  | array (elements : List (Value F64))
  | object (members : List (String × Value F64))

namespace Value

variable {F64 : Type}

def get (value : Value F64) (key : String) : Option (Value F64) :=
  match value with
  | object members => members.lookup key
  | _ => none

def asStr : Value F64 → Option String
  | string value => some value
  | _ => none

def asBool : Value F64 → Option Bool
  | bool value => some value
  | _ => none

def asU64 : Value F64 → Option UInt64
  | posInt value => some value
  | _ => none

def asI64 : Value F64 → Option Int
  | posInt value =>
      if value.toNat < 2 ^ 63 then some value.toNat else none
  | negInt value => some value.toInt
  | _ => none

def asF64 (floats : Floats) : Value floats.F64 → Option floats.F64
  | posInt value => some (floats.ofInt value.toNat)
  | negInt value => some (floats.ofInt value.toInt)
  | float value => some value
  | _ => none

end Value

/-! ## Constants -/

def syncFailureWindow : Nat := 30 * 60 * 1000000000
def syncFailureThreshold : Nat := 3
def propagationNodeTtlSecs : Int := 48 * 3600
def defaultStaticPriority : UInt16 := 1000

/-! ## Settings and static nodes -/

inductive PropagationMode where
  | off
  | auto
  | manual
deriving DecidableEq

def PropagationMode.parse (text : String) : Option PropagationMode :=
  if text = "off" then some .off
  else if text = "auto" then some .auto
  else if text = "manual" then some .manual
  else none

/-- A node that is bundled with the program. -/
structure StaticPropNode where
  hash : Hash
  priority : UInt16

/-- What the choice is made from: the active identity if there is one, the
bundled nodes, the registry in the order in which its map goes through it,
the counted failures with the time of the last one, and the two clocks. -/
structure AppState (floats : Floats) where
  activeIdentity : Option (Value floats.F64)
  staticNodes : List StaticPropNode
  discoveredPropagationNodes : List (String × Value floats.F64)
  autoFailureCounts : Hash → Option (Nat × Nat)
  now : floats.F64
  instant : Nat

variable {floats : Floats}

def readSettings (state : AppState floats) : PropagationMode × Bool :=
  match state.activeIdentity with
  | none => (.auto, true)
  | some identity =>
      let mode := (((identity.get "propagation_mode").bind
        Value.asStr).bind PropagationMode.parse).getD .auto
      let favorStatic := (((identity.get
        "propagation_auto_favor_static").bind
          Value.asI64).map fun value => decide (value ≠ 0)).getD true
      (mode, favorStatic)

namespace AppState

variable (state : AppState floats)

def nodeFor (hash : Hash) : Option StaticPropNode :=
  state.staticNodes.find? fun node => node.hash = hash

def priorityFor (hash : Hash) : UInt16 :=
  ((state.nodeFor hash).map StaticPropNode.priority).getD defaultStaticPriority

def hashSet : List Hash :=
  state.staticNodes.map StaticPropNode.hash

end AppState

/-! ## Eligibility -/

def jsonF64 (value : Value floats.F64) : Option floats.F64 :=
  ((value.asF64 floats).or
    (value.asU64.map fun number => floats.ofInt number.toNat)).or
      (value.asI64.map floats.ofInt)

def nodeStateIsUsable (value : Value floats.F64) : Bool :=
  ["enabled", "known"].contains (((value.get "node_state").bind Value.asStr).getD "unknown")

def relayMetadataIsUsable (value : Value floats.F64) : Bool :=
  ((value.get "stamp_cost").bind Value.asU64).isSome

def relayPathStateAllowsSelection (value : Value floats.F64) (now : floats.F64) : Bool :=
  let backoffActive := (((value.get "backoff_until").bind jsonF64).map
    fun time => floats.less now time).getD false
  if backoffActive then false
  else
    !(["missing", "failed", "probing"].contains
      (((value.get "path_status").bind Value.asStr).getD "unknown"))

def lastSeen (value : Value floats.F64) : Option floats.F64 :=
  ((value.get "last_seen").bind jsonF64).filter fun time =>
    floats.less (floats.ofInt 0) time

def lastSeenIsCurrent (value : Value floats.F64) (now : floats.F64) : Bool :=
  ((lastSeen value).map fun time =>
    floats.less (floats.sub now time) (floats.ofInt propagationNodeTtlSecs)).getD false

def registryEntryIsStatic (staticSet : List Hash) (hash : Hash)
    (value : Value floats.F64) : Bool :=
  staticSet.contains hash || ((value.get "static").bind Value.asBool).getD false

def registryStaticPriority (state : AppState floats) (isStatic : Bool) (hash : Hash) : UInt16 :=
  if isStatic then state.priorityFor hash else defaultStaticPriority

def staticEntryIsSelectable (value : Value floats.F64) (now : floats.F64) : Bool :=
  let status := ((value.get "static_status").bind Value.asStr).getD "unknown"
  (status = "reachable" || lastSeenIsCurrent value now) &&
    nodeStateIsUsable value && relayMetadataIsUsable value &&
    relayPathStateAllowsSelection value now

/-- The hash that a key of the registry stands for. -/
def hashOf (hashHex : String) : Option Hash :=
  (hexDecode hashHex).bind (Bytes.ofList 16)

/-! ## The two choices -/

/-- Whether the node is preferred or static, its priority, its hops and its
hash. -/
abbrev Candidate := Bool × UInt16 × UInt8 × Hash

def autoCandidate (state : AppState floats)
    (entry : String × Value floats.F64) : Option Candidate := do
  let (_, favorStatic) := readSettings state
  let (hashHex, value) := entry
  let hash ← hashOf hashHex
  let isStatic := registryEntryIsStatic state.hashSet hash value
  if isStatic && !staticEntryIsSelectable value state.now then none
  else if !isStatic && (!nodeStateIsUsable value ||
      !relayMetadataIsUsable value || !lastSeenIsCurrent value state.now ||
      !relayPathStateAllowsSelection value state.now) then none
  else
    let hops := (((value.get "hops").bind Value.asU64).map fun hops =>
      UInt8.ofNat (min hops.toNat 255)).getD 255
    let priority := registryStaticPriority state (favorStatic && isStatic) hash
    some (isStatic, priority, hops, hash)

def autoCompare (favorStatic : Bool) (a b : Candidate) : Ordering :=
  let aPref := favorStatic && a.1
  let bPref := favorStatic && b.1
  match compare bPref aPref with
  | .eq =>
      match compare a.2.1 b.2.1 with
      | .eq =>
          match compare a.2.2.1 b.2.2.1 with
          | .eq => compare a.2.2.2.val b.2.2.2.val
          | other => other
      | other => other
  | other => other

/-- The node did not fail too often lately. -/
def autoRetains (state : AppState floats) (hash : Hash) : Bool :=
  match state.autoFailureCounts hash with
  | some (count, time) =>
      if syncFailureThreshold ≤ count then
        decide (syncFailureWindow ≤ state.instant - time)
      else true
  | none => true

def autoSelectNode (state : AppState floats) : Option Hash :=
  let (_, favorStatic) := readSettings state
  let candidates :=
    state.discoveredPropagationNodes.filterMap (autoCandidate state)
  let candidates := candidates.filter fun candidate =>
    autoRetains state candidate.2.2.2
  (sortedBy (autoCompare favorStatic) candidates).head?.map fun candidate => candidate.2.2.2

def liveCandidate (state : AppState floats) (livePaths : List Hash)
    (entry : String × Value floats.F64) : Option Candidate := do
  let (_, favorStatic) := readSettings state
  let (hashHex, value) := entry
  let hash ← hashOf hashHex
  if !livePaths.contains hash then none
  else
  let isStatic := registryEntryIsStatic state.hashSet hash value
  if isStatic && !staticEntryIsSelectable value state.now then none
  else if !isStatic && (!nodeStateIsUsable value ||
      !relayMetadataIsUsable value || !lastSeenIsCurrent value state.now ||
      !relayPathStateAllowsSelection value state.now) then none
  else
    let hops := UInt8.ofNat (min (((value.get "hops").bind Value.asU64).getD 255).toNat 255)
    let priority := registryStaticPriority state (favorStatic && isStatic) hash
    some (favorStatic && isStatic, priority, hops, hash)

def liveCompare (a b : Candidate) : Ordering :=
  match compare b.1 a.1 with
  | .eq =>
      match compare a.2.1 b.2.1 with
      | .eq =>
          match compare a.2.2.1 b.2.2.1 with
          | .eq => compare a.2.2.2.val b.2.2.2.val
          | other => other
      | other => other
  | other => other

/-- The same for the second choice. -/
def liveRetains (state : AppState floats) (hash : Hash) : Bool :=
  !((state.autoFailureCounts hash).any fun (count, first) =>
    decide (syncFailureThreshold ≤ count) &&
      decide (state.instant - first ≤ syncFailureWindow))

def autoSelectNodeWithLivePaths (state : AppState floats)
    (livePaths : List Hash) : Option Hash :=
  let candidates := state.discoveredPropagationNodes.filterMap (liveCandidate state livePaths)
  let candidates := candidates.filter fun candidate =>
    liveRetains state candidate.2.2.2
  (sortedBy liveCompare candidates).head?.map fun candidate => candidate.2.2.2

end Ratspeak.Propagation
