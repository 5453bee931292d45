import Ratspeak.Activity.Schema
import Ratspeak.Library.Bytes

/-!
# Drafts of activity events

A draft still holds raw values.  Before it may be sealed it is validated
against the longest event that it can become: every pseudonym and number is
taken as long as it gets.  A validated draft carries the outcome of that
comparison.
-/

namespace Ratspeak.Activity

open Library

/-- The pseudonym of a whole digest, the longest there is. -/
def maxWirePseudonym : String := hexEncode (List.replicate 32 255)

def maxWireToken : String := hexEncode (List.replicate 16 255)

inductive ActivityRejectReason where
  | captureContextMismatch
  | encodedEventTooLarge
  | tooManyAttributes
  deriving DecidableEq

inductive NavigationAction where
  | call
  | channel
  | conversation
  | interface
  | peer
  deriving DecidableEq

inductive ExactValue where
  | boolean (value : Bool)
  | signed (value : Int64)
  | unsigned (value : UInt64)

def ExactValue.wire : ExactValue → ActivityValueV1
  | boolean value => .boolean value
  | signed value => .signed value
  | unsigned value => .unsigned value

/-- A random token of sixteen bytes. -/
abbrev CorrelationId := { bytes : List UInt8 // bytes.length = 16 }

def CorrelationId.wire (correlation : CorrelationId) : String :=
  hexEncode correlation.val

structure DraftContext where
  captureSession : String
  captureGeneration : UInt64
  captureProfile : CaptureProfile

inductive DraftValue where
  | exact (value : ExactValue)
  | operationalCode (code : String)
  | protocolIdentifier (kind : IdentifierKind) (raw : List UInt8)
  | sensitiveEndpoint (endpointClass : EndpointClass) (raw : String)
  | opaqueLocalReference (action : NavigationAction) (raw : List UInt8)

structure DraftAttribute where
  key : ActivityAttributeKey
  value : DraftValue

/-- An entry of the catalogue of events. -/
structure ActivityKindCode where
  code : String
  area : ActivityArea
  summaryCode : String

structure ActivityDraft where
  kind : ActivityKindCode
  severity : ActivitySeverity
  direction : ActivityDirection
  outcome : ActivityOutcome
  timestampUnixMs : UInt64
  elapsedMs : UInt64
  attributes : List DraftAttribute
  correlationId : Option CorrelationId
  parentSequence : Option UInt64

/-- The longest attribute that a draft attribute can become. -/
def conservativeProjection (draft : DraftAttribute) :
    Option ActivityAttributeV1 :=
  match draft.value with
  | .exact value => some ⟨draft.key, value.wire⟩
  | .operationalCode code => some ⟨draft.key, .code code⟩
  | .protocolIdentifier kind _ =>
      some ⟨draft.key, .identifier ⟨kind, maxWirePseudonym, some (UInt32.ofNat (2 ^ 32 - 1))⟩⟩
  | .sensitiveEndpoint endpointClass _ => some ⟨draft.key, .endpoint endpointClass⟩
  | .opaqueLocalReference _ _ => none

namespace ActivityDraft

/-- The longest event that the draft can become. -/
def conservative (draft : ActivityDraft) (context : DraftContext) :
    ActivityEventV1 where
  version := activitySchemaVersion
  sequence := UInt64.ofNat (2 ^ 64 - 1)
  captureSession := context.captureSession
  captureGeneration := UInt64.ofNat (2 ^ 64 - 1)
  timestampUnixMs := UInt64.ofNat (2 ^ 64 - 1)
  elapsedMs := UInt64.ofNat (2 ^ 64 - 1)
  area := draft.kind.area
  kind := draft.kind.code
  severity := draft.severity
  captureProfile := context.captureProfile
  direction := draft.direction
  outcome := draft.outcome
  summaryCode := draft.kind.summaryCode
  attributes := draft.attributes.filterMap conservativeProjection
  correlationId :=
    (draft.correlationId.map CorrelationId.wire).or (some maxWireToken)
  parentSequence := some (UInt64.ofNat (2 ^ 64 - 1))
  count := UInt32.ofNat (2 ^ 32 - 1)
  firstTimestampMs := some (UInt64.ofNat (2 ^ 64 - 1))
  lastTimestampMs := some (UInt64.ofNat (2 ^ 64 - 1))

def conservativeCopy (draft : ActivityDraft) (context : DraftContext) :
    Except SafeCopyError SafeCopyEventV1 :=
  (draft.conservative context).safeCopyWithEndpointPseudonyms fun _ => some maxWirePseudonym

end ActivityDraft

/-- A draft with its context.  Whatever it becomes is short enough. -/
structure ValidatedDraft extends ActivityDraft where
  context : DraftContext
  count : UInt32
  firstTimestampMs : Option UInt64
  lastTimestampMs : Option UInt64
  limited : attributes.length ≤ maxAttributes
  wireFits : (toActivityDraft.conservative context).wireBytes ≤ maxEncodedEventBytes
  copyFits : ∃ copy, toActivityDraft.conservativeCopy context = .ok copy ∧
    copy.copyBytes ≤ maxEncodedEventBytes

/-- A validated draft that no later one can join. -/
abbrev ReadyDraft := ValidatedDraft

def ActivityDraft.validate (draft : ActivityDraft) (context : DraftContext) :
    Except ActivityRejectReason ValidatedDraft :=
  if limited : draft.attributes.length ≤ maxAttributes then
    match copied : draft.conservativeCopy context with
    | .error _ => .error .encodedEventTooLarge
    | .ok copy =>
        if fits : max (draft.conservative context).wireBytes copy.copyBytes ≤
            maxEncodedEventBytes then
          .ok
            { draft with
              context := context
              count := 1
              firstTimestampMs := none
              lastTimestampMs := none
              limited := limited
              wireFits := (Nat.max_le.mp fits).1
              copyFits := ⟨copy, copied, (Nat.max_le.mp fits).2⟩ }
        else .error .encodedEventTooLarge
  else .error .tooManyAttributes

end Ratspeak.Activity
