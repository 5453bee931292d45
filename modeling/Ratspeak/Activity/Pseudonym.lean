import Ratspeak.Activity.Classified
import Ratspeak.Library.FiniteMap

/-!
# The privacy state of a capture

A capture replaces identifiers and endpoints by pseudonyms: prefixes of keyed
digests, lengthened where another value has the prefix already, and numbered
in each domain.  Once the table is full, a new value is shown by its whole
digest.  Sealing a draft masks it, and keeps apart the raw values that may be
revealed later.
-/

namespace Ratspeak.Activity

open Library

/-- What a keyed hash puts out. -/
abbrev Digest := { bytes : List UInt8 // bytes.length = 32 }

/-- HMAC-SHA256. -/
class PseudonymHash where
  hmacSha256 : List UInt8 → List UInt8 → Digest

def pseudonymContext : List UInt8 :=
  "ratspeak.activity.pseudonym.v1".toUTF8.toList ++ [0]

def initialPseudonymBytes : Nat := 12

def mobileMaxTrackedPseudonyms : Nat := 2048

def desktopMaxTrackedPseudonyms : Nat := 4096

inductive PseudonymDomain where
  | protocol (kind : IdentifierKind)
  | endpoint (endpointClass : EndpointClass)
  deriving DecidableEq

namespace PseudonymDomain

def classId : PseudonymDomain → UInt8
  | protocol _ => 1
  | endpoint _ => 2

def semanticId : PseudonymDomain → UInt8
  | protocol kind => kind.domainId
  | endpoint endpointClass => endpointClass.domainId

def ordinalSlot : PseudonymDomain → Nat
  | protocol kind => kind.domainId.toNat - 1
  | endpoint endpointClass => 8 + endpointClass.domainId.toNat - 1

end PseudonymDomain

structure AssignedPseudonym where
  rendered : String
  ordinal : Option UInt32
  deriving DecidableEq

/-- A prefix of a digest, filled up with zeros. -/
structure RenderedPrefix where
  bytes : List UInt8
  len : Nat
  deriving DecidableEq

namespace RenderedPrefix

def new (digest : Digest) (len : Nat) : RenderedPrefix where
  bytes := digest.val.take len ++ List.replicate (32 - len) 0
  len := len

def render (rendered : RenderedPrefix) : String :=
  hexEncode (rendered.bytes.take rendered.len)

end RenderedPrefix

structure TrackedPseudonym where
  rendered : RenderedPrefix
  ordinal : UInt32
  deriving DecidableEq

abbrev DigestKey := PseudonymDomain × Digest

/-- The key of a capture and its tables. -/
structure CapturePrivacy where
  key : List UInt8
  captureSession : String
  byDigest : FiniteMap DigestKey TrackedPseudonym
  byRendered : FiniteMap RenderedPrefix DigestKey
  nextOrdinal : Nat → UInt32
  maxTrackedPseudonyms : Nat

inductive Platform where
  | mobile
  | desktop

def platformMaxTrackedPseudonyms : Platform → Nat
  | .mobile => mobileMaxTrackedPseudonyms
  | .desktop => desktopMaxTrackedPseudonyms

def saturatingSucc (number : UInt32) : UInt32 :=
  if number.toNat = 2 ^ 32 - 1 then number else number + 1

namespace CapturePrivacy

def fromMaterialWithLimit (key captureSession : List UInt8)
    (maxTrackedPseudonyms : Nat) : CapturePrivacy where
  key := key
  captureSession := hexEncode captureSession
  byDigest := ∅
  byRendered := ∅
  nextOrdinal := fun _ => 0
  maxTrackedPseudonyms := maxTrackedPseudonyms

/-- The first prefix that no other value has, or the whole digest.  There are
`room` bytes left to go. -/
def freePrefix (byRendered : FiniteMap RenderedPrefix DigestKey)
    (digestKey : DigestKey) : Nat → RenderedPrefix
  | 0 => .new digestKey.2 32
  | room + 1 =>
      let candidate := RenderedPrefix.new digestKey.2 (32 - (room + 1))
      match byRendered.lookup candidate with
      | none => candidate
      | some existing =>
          if existing = digestKey then candidate
          else freePrefix byRendered digestKey room

def assignDigest (privacy : CapturePrivacy) (domain : PseudonymDomain)
    (digest : Digest) : CapturePrivacy × AssignedPseudonym :=
  match privacy.byDigest.lookup (domain, digest) with
  | some existing => (privacy, ⟨existing.rendered.render, some existing.ordinal⟩)
  | none =>
      if privacy.byDigest.keys.length ≥ privacy.maxTrackedPseudonyms then
        (privacy, ⟨hexEncode digest.val, none⟩)
      else
        let ordinal := saturatingSucc (privacy.nextOrdinal domain.ordinalSlot)
        let rendered := freePrefix privacy.byRendered (domain, digest)
          (32 - initialPseudonymBytes)
        ({ privacy with
            nextOrdinal :=
              Function.update privacy.nextOrdinal domain.ordinalSlot ordinal
            byRendered := privacy.byRendered.insert rendered (domain, digest)
            byDigest :=
              privacy.byDigest.insert (domain, digest) ⟨rendered, ordinal⟩ },
          ⟨rendered.render, some ordinal⟩)

variable [PseudonymHash]

/-- The keyed hash of a value in a domain. -/
def keyedHash (key : List UInt8) (domain : PseudonymDomain)
    (canonicalValue : List UInt8) : Digest :=
  PseudonymHash.hmacSha256 key
    (pseudonymContext ++ [domain.classId, domain.semanticId] ++
      bigEndian 8 canonicalValue.length ++ canonicalValue)

def assign (privacy : CapturePrivacy) (domain : PseudonymDomain)
    (canonicalValue : List UInt8) : CapturePrivacy × AssignedPseudonym :=
  privacy.assignDigest domain (keyedHash privacy.key domain canonicalValue)

end CapturePrivacy

/-! ## Stored events -/

inductive StoredRawValue where
  | protocolIdentifier (kind : IdentifierKind) (raw : List UInt8)
  | sensitiveEndpoint (endpointClass : EndpointClass) (pseudonym : String)
      (raw : Option String)
  | opaqueLocalReference (action : NavigationAction) (raw : List UInt8)

structure StoredRawField where
  key : ActivityAttributeKey
  attributeIndex : Option Nat
  value : StoredRawValue

/-- The pseudonym of an endpoint that stands at an index. -/
def StoredRawField.endpointPseudonym (index : Nat) (field : StoredRawField) :
    Option String :=
  if field.attributeIndex ≠ some index then none
  else
    match field.value with
    | .sensitiveEndpoint _ pseudonym _ => some pseudonym
    | .protocolIdentifier _ _ => none
    | .opaqueLocalReference _ _ => none

def safeCopyProjection (wire : ActivityEventV1) (rawFields : List StoredRawField) :
    Except SafeCopyError SafeCopyEventV1 :=
  wire.safeCopyWithEndpointPseudonyms fun index =>
    rawFields.findSome? (StoredRawField.endpointPseudonym index)

/-- A masked event with its raw values apart. -/
structure StoredEventV1 where
  wire : ActivityEventV1
  rawFields : List StoredRawField

namespace StoredEventV1

def masked (stored : StoredEventV1) : ActivityEventV1 :=
  stored.wire

def safeCopy (stored : StoredEventV1) :
    Except SafeCopyError SafeCopyEventV1 :=
  safeCopyProjection stored.wire stored.rawFields

/-- Sensitive endpoints are revealed only for events of a trace. -/
def revealEndpoint (stored : StoredEventV1) (key : ActivityAttributeKey) :
    Option (EndpointClass × String) :=
  if stored.wire.captureProfile ≠ .trace then none
  else
    (stored.rawFields.find? fun field => field.key = key).bind fun field =>
      match field.value with
      | .sensitiveEndpoint endpointClass _ (some raw) => some (endpointClass, raw)
      | .sensitiveEndpoint _ _ none => none
      | .protocolIdentifier _ _ => none
      | .opaqueLocalReference _ _ => none

end StoredEventV1

/-! ## Sealing -/

/-- How far the sealing of a draft is. -/
structure Sealing where
  privacy : CapturePrivacy
  maskedAttributes : List ActivityAttributeV1
  rawFields : List StoredRawField

namespace CapturePrivacy

def endpointBytes (raw : String) : List UInt8 :=
  raw.toUTF8.toList

variable [PseudonymHash]

/-- Seal one attribute. -/
def sealAttribute (profile : CaptureProfile) (sealing : Sealing)
    (draft : DraftAttribute) : Sealing :=
  match draft.value with
  | .exact value =>
      { sealing with
        maskedAttributes :=
          sealing.maskedAttributes ++ [⟨draft.key, value.wire⟩] }
  | .operationalCode code =>
      { sealing with
        maskedAttributes :=
          sealing.maskedAttributes ++ [⟨draft.key, .code code⟩] }
  | .protocolIdentifier kind raw =>
      let attributeIndex := sealing.maskedAttributes.length
      let (privacy, assigned) := sealing.privacy.assign (.protocol kind) raw
      { privacy := privacy
        maskedAttributes := sealing.maskedAttributes ++
          [⟨draft.key, .identifier ⟨kind, assigned.rendered, assigned.ordinal⟩⟩]
        rawFields := sealing.rawFields ++
          [⟨draft.key, some attributeIndex, .protocolIdentifier kind raw⟩] }
  | .sensitiveEndpoint endpointClass raw =>
      let attributeIndex := sealing.maskedAttributes.length
      let (privacy, assigned) :=
        sealing.privacy.assign (.endpoint endpointClass) (endpointBytes raw)
      let retainedRaw := if profile = .trace then some raw else none
      { privacy := privacy
        maskedAttributes := sealing.maskedAttributes ++ [⟨draft.key, .endpoint endpointClass⟩]
        rawFields := sealing.rawFields ++
          [⟨draft.key, some attributeIndex,
            .sensitiveEndpoint endpointClass assigned.rendered retainedRaw⟩] }
  | .opaqueLocalReference action raw =>
      { sealing with
        rawFields := sealing.rawFields ++
          [⟨draft.key, none, .opaqueLocalReference action raw⟩] }

/-- The masked event of a draft whose attributes are sealed. -/
def wireEvent (ready : ReadyDraft) (sequence : UInt64)
    (attributes : List ActivityAttributeV1) : ActivityEventV1 where
  version := activitySchemaVersion
  sequence := sequence
  captureSession := ready.context.captureSession
  captureGeneration := ready.context.captureGeneration
  timestampUnixMs := ready.timestampUnixMs
  elapsedMs := ready.elapsedMs
  area := ready.kind.area
  kind := ready.kind.code
  severity := ready.severity
  captureProfile := ready.context.captureProfile
  direction := ready.direction
  outcome := ready.outcome
  summaryCode := ready.kind.summaryCode
  attributes := attributes
  correlationId := ready.correlationId.map CorrelationId.wire
  parentSequence := ready.parentSequence
  count := ready.count
  firstTimestampMs := ready.firstTimestampMs
  lastTimestampMs := ready.lastTimestampMs

/-- Store an event if it and its safe copy are short enough. -/
def stored (wire : ActivityEventV1) (rawFields : List StoredRawField) :
    Except ActivityRejectReason StoredEventV1 :=
  if wire.wireBytes > maxEncodedEventBytes then .error .encodedEventTooLarge
  else
    match safeCopyProjection wire rawFields with
    | .error _ => .error .encodedEventTooLarge
    | .ok safeCopy =>
        if safeCopy.copyBytes > maxEncodedEventBytes then
          .error .encodedEventTooLarge
        else .ok ⟨wire, rawFields⟩

/-- Seal a draft.  The tables keep what they took in before a rejection. -/
def «seal» (privacy : CapturePrivacy) (ready : ReadyDraft) (sequence : UInt64) :
    CapturePrivacy × Except ActivityRejectReason StoredEventV1 :=
  if ready.context.captureSession ≠ privacy.captureSession then
    (privacy, .error .captureContextMismatch)
  else
    let sealed := ready.attributes.foldl
      (sealAttribute ready.context.captureProfile) ⟨privacy, [], []⟩
    (sealed.privacy, stored (wireEvent ready sequence sealed.maskedAttributes) sealed.rawFields)

/-- Seal drafts, each under its sequence number, one after the other. -/
def sealAll (privacy : CapturePrivacy) :
    List (ReadyDraft × UInt64) →
      CapturePrivacy × List (Except ActivityRejectReason StoredEventV1)
  | [] => (privacy, [])
  | (ready, sequence) :: rest =>
      let (next, result) := privacy.seal ready sequence
      let (last, results) := sealAll next rest
      (last, result :: results)

end CapturePrivacy

end Ratspeak.Activity
