import Mathlib.Data.List.Basic
import Ratspeak.Activity.Schema
import Ratspeak.Library.Runs

/-!
# The capture gate

Producers of activity events enter a gate without a lock: they load the state
word, load the generation, count themselves in by a compare-and-swap and load
the generation once more.  Whoever starts and stops captures closes the gate,
waits for the producers inside to leave, advances the generation and opens the
gate again under a new profile, all of that under a mutex but the closing.

Every atomic operation of a producer is one step here, and so is every section
under the mutex.  A system of any number of calls takes such steps in any
order, and leaves marks of what happened.
-/

namespace Ratspeak.Activity

open Library

/-! ## The state word -/

def closedBit : Nat := 2 ^ 63

def readerMask : Nat := closedBit - 1

/-- The largest generation, which no capture uses. -/
def lastGeneration : Nat := 2 ^ 64 - 1

/-- The largest number of callers that may wait at once. -/
def maxWaiters : Nat := 2 ^ 64 - 1

/-- What an open gate tells the producers that it admits. -/
structure PublishedAdmission where
  profile : CaptureProfile
  traceDeadline : Option Nat
  deriving DecidableEq

inductive GateError where
  | notClosed
  | readersActive (readers : Nat)
  | quiescenceWaitInProgress
  | generationMismatch (expected actual : Nat)
  | generationExhausted
  | waiterCountExhausted
  | unexpectedTraceDeadline
  deriving DecidableEq

/-- The high bit of the state closes the gate, the other bits count the
producers inside. -/
structure AdmissionGate where
  state : Nat
  generation : Nat
  published : PublishedAdmission
  quiescenceWaiters : Nat

/-- What an admitted producer holds until it is done. -/
structure AdmissionLease where
  generation : Nat
  published : PublishedAdmission
  deriving DecidableEq

/-- Whether a state word says that the gate is closed. -/
def wordClosed (word : Nat) : Bool :=
  decide (word &&& closedBit ≠ 0)

/-- The number of producers that a state word counts. -/
def wordReaders (word : Nat) : Nat :=
  word &&& readerMask

namespace AdmissionGate

/-- A closed gate at generation zero. -/
def new : AdmissionGate where
  state := closedBit
  generation := 0
  published := ⟨.normal, none⟩
  quiescenceWaiters := 0

def isClosed (gate : AdmissionGate) : Bool :=
  wordClosed gate.state

/-- `fetch_or` of the closed bit. -/
def closeAtomic (gate : AdmissionGate) : AdmissionGate :=
  { gate with state := gate.state ||| closedBit }

/-- `fetch_sub` of one, which wraps. -/
def releaseReader (gate : AdmissionGate) : AdmissionGate :=
  { gate with state := (gate.state + (2 ^ 64 - 1)) % 2 ^ 64 }

/-! ## Sections under the mutex -/

def advanceGenerationLocked (gate : AdmissionGate) :
    AdmissionGate × Except GateError Nat :=
  if gate.generation = lastGeneration then
    (gate.closeAtomic, .error .generationExhausted)
  else
    ({ gate with generation := gate.generation + 1 }, .ok (gate.generation + 1))

def advanceGeneration (gate : AdmissionGate) :
    AdmissionGate × Except GateError Nat :=
  if !gate.isClosed then (gate, .error .notClosed)
  else gate.advanceGenerationLocked

def hardReset (gate : AdmissionGate) :
    AdmissionGate × Except GateError Nat :=
  gate.closeAtomic.advanceGenerationLocked

/-- Publish a profile and open the gate, if the generation is still the
expected one.  As no other step comes in between, the two compare-and-swaps
at the end succeed. -/
def openIfGeneration (gate : AdmissionGate) (expected : Nat) (published : PublishedAdmission) :
    AdmissionGate × Except GateError Unit :=
  if gate.quiescenceWaiters ≠ 0 then
    (gate, .error .quiescenceWaitInProgress)
  else if published.profile = .normal ∧
      published.traceDeadline.isSome = true then
    (gate, .error .unexpectedTraceDeadline)
  else if !wordClosed gate.state then (gate, .error .notClosed)
  else if wordReaders gate.state ≠ 0 then
    (gate, .error (.readersActive (wordReaders gate.state)))
  else if gate.generation = lastGeneration then
    (gate, .error .generationExhausted)
  else if gate.generation ≠ expected then
    (gate, .error (.generationMismatch expected gate.generation))
  else
    ({ gate with state := 0, published := published }, .ok ())

/-- One look of a caller that waits for the gate to be empty, after it was
counted as one that waits. -/
def recheckQuiescent (gate : AdmissionGate) : AdmissionGate × Bool :=
  if gate.state = closedBit then
    ({ gate with quiescenceWaiters := gate.quiescenceWaiters - 1 }, true)
  else (gate, false)

/-- The first section of a caller that waits: it is counted and looks for the
first time. -/
def waitQuiescent (gate : AdmissionGate) :
    AdmissionGate × Except GateError Bool :=
  if !gate.isClosed then (gate, .error .notClosed)
  else if gate.quiescenceWaiters = maxWaiters then
    (gate, .error .waiterCountExhausted)
  else
    let (looked, quiescent) :=
      { gate with quiescenceWaiters := gate.quiescenceWaiters + 1 }.recheckQuiescent
    (looked, .ok quiescent)

end AdmissionGate

/-! ## Producers -/

/-- Where a call of `try_admit` stands, up to the end of its lease. -/
inductive Admission where
  /-- About to load the state. -/
  | reading
  /-- About to load the generation, the gate was open. -/
  | found (state : Nat)
  /-- About to count itself in. -/
  | counting (state generation : Nat)
  /-- Counted, about to load the generation again. -/
  | confirming (generation : Nat)
  /-- Counted and confirmed, about to copy what is published. -/
  | copying (generation : Nat)
  /-- Counted, about to leave since the generation is another one. -/
  | retreating (confirmed : Nat)
  /-- About to close the gate, the generations are exhausted. -/
  | failing
  | leased (lease : AdmissionLease)
  | ended
  deriving DecidableEq

/-- The call counts as one of the readers. -/
def Admission.counted : Admission → Bool
  | confirming _ => true
  | copying _ => true
  | retreating _ => true
  | leased _ => true
  | _ => false

/-- What is worth a mark. -/
inductive GateMark where
  /-- A call counted itself in, under this generation. -/
  | admitted (call generation : Nat)
  | granted (call : Nat) (lease : AdmissionLease)
  | refused (call : Nat)
  | closed
  | opened (generation : Nat) (published : PublishedAdmission)
  | quiesced
  deriving DecidableEq

namespace AdmissionGate

/-- The next step of a call of `try_admit`.  A weak compare-and-swap may fail
for no reason. -/
def tryAdmitStep (gate : AdmissionGate) (call : Nat) (spurious : Bool) :
    Admission → AdmissionGate × Admission × List GateMark
  | .reading =>
      if wordClosed gate.state then (gate, .ended, [.refused call])
      else (gate, .found gate.state, [])
  | .found state =>
      if gate.generation = lastGeneration then (gate, .failing, [])
      else (gate, .counting state gate.generation, [])
  | .counting state generation =>
      if wordClosed state then (gate, .ended, [.refused call])
      else if spurious ∨ gate.state ≠ state then
        (gate, .counting gate.state generation, [])
      else if wordReaders state = readerMask then
        ({ gate with state := state ||| closedBit }, .ended, [.closed, .refused call])
      else
        ({ gate with state := state + 1 }, .confirming generation,
          [.admitted call gate.generation])
  | .confirming generation =>
      if gate.generation = generation then (gate, .copying generation, [])
      else (gate, .retreating gate.generation, [])
  | .copying generation =>
      let lease : AdmissionLease := ⟨generation, gate.published⟩
      (gate, .leased lease, [.granted call lease])
  | .retreating confirmed =>
      (gate.releaseReader,
        if confirmed = lastGeneration then .failing else .reading, [])
  | .failing => (gate.closeAtomic, .ended, [.closed, .refused call])
  | .leased lease => (gate, .leased lease, [])
  | .ended => (gate, .ended, [])

end AdmissionGate

/-! ## The system -/

/-- One step of somebody. -/
inductive GateAction where
  /-- A producer calls `try_admit`. -/
  | tryAdmit
  /-- A call takes its next step. -/
  | proceed (call : Nat) (spurious : Bool)
  /-- A producer drops the lease of a call. -/
  | dropLease (call : Nat)
  | close
  | waitQuiescent
  /-- One of those that wait looks again. -/
  | recheck
  | advanceGeneration
  | hardReset
  | openIfGeneration (expected : Nat) (published : PublishedAdmission)

/-- The gate, and all calls of `try_admit` so far. -/
structure GateSystem where
  gate : AdmissionGate
  admissions : List Admission

namespace GateSystem

def new : GateSystem where
  gate := .new
  admissions := []

/-- Take a step, with the marks it leaves. -/
def step (system : GateSystem) : GateAction → GateSystem × List GateMark
  | .tryAdmit => ({ system with admissions := system.admissions ++ [.reading] }, [])
  | .proceed call spurious =>
      match system.admissions[call]? with
      | none => (system, [])
      | some admission =>
          let (gate, next, marks) :=
            system.gate.tryAdmitStep call spurious admission
          (⟨gate, system.admissions.set call next⟩, marks)
  | .dropLease call =>
      match system.admissions[call]? with
      | some (.leased _) =>
          (⟨system.gate.releaseReader, system.admissions.set call .ended⟩, [])
      | _ => (system, [])
  | .close => ({ system with gate := system.gate.closeAtomic }, [.closed])
  | .waitQuiescent =>
      match system.gate.waitQuiescent with
      | (gate, .ok true) => ({ system with gate := gate }, [.quiesced])
      | (gate, _) => ({ system with gate := gate }, [])
  | .recheck =>
      if system.gate.quiescenceWaiters = 0 then (system, [])
      else
        match system.gate.recheckQuiescent with
        | (gate, true) => ({ system with gate := gate }, [.quiesced])
        | (gate, false) => ({ system with gate := gate }, [])
  | .advanceGeneration => ({ system with gate := system.gate.advanceGeneration.1 }, [])
  | .hardReset => ({ system with gate := system.gate.hardReset.1 }, [.closed])
  | .openIfGeneration expected published =>
      match system.gate.openIfGeneration expected published with
      | (gate, .ok ()) => ({ system with gate := gate }, [.opened expected published])
      | (gate, .error _) => ({ system with gate := gate }, [])

/-- The system after a sequence of steps, and the marks of all of them. -/
def run (actions : List GateAction) : GateSystem × List GateMark :=
  runFrom (recording step) (new, []) actions

end GateSystem

end Ratspeak.Activity
