import Ratspeak.Library.JsonText

/-!
# Masked activity events

The types that may be shown and copied.  None of them has a place for a raw
identifier, an endpoint or a navigation reference.  A masked event and its
safe copy have the same fields and differ in their attributes: only the
masked event shows ordinals, only the safe copy shows the pseudonyms of
endpoints.
-/

namespace Ratspeak.Activity

open Library

def activitySchemaVersion : UInt8 := 1

def maxAttributes : Nat := 32

def maxEncodedEventBytes : Nat := 4 * 1024

inductive ActivityArea where
  | network
  | interfaces
  | links
  | messages
  | channels
  | calls
  | apps
  | ratspeak
  deriving DecidableEq

def ActivityArea.name : ActivityArea → String
  | network => "network"
  | interfaces => "interfaces"
  | links => "links"
  | messages => "messages"
  | channels => "channels"
  | calls => "calls"
  | apps => "apps"
  | ratspeak => "ratspeak"

inductive ActivitySeverity where
  | info
  | warning
  | error
  deriving DecidableEq

def ActivitySeverity.name : ActivitySeverity → String
  | info => "info"
  | warning => "warning"
  | error => "error"

inductive CaptureProfile where
  | normal
  | trace
  deriving DecidableEq

def CaptureProfile.name : CaptureProfile → String
  | normal => "normal"
  | trace => "trace"

inductive ActivityDirection where
  | «local»
  | inbound
  | outbound
  | none
  deriving DecidableEq

def ActivityDirection.name : ActivityDirection → String
  | «local» => "local"
  | inbound => "inbound"
  | outbound => "outbound"
  | none => "none"

inductive ActivityOutcome where
  | started
  | progress
  | success
  | degraded
  | rejected
  | failed
  | timedOut
  | dropped
  | none
  deriving DecidableEq

def ActivityOutcome.name : ActivityOutcome → String
  | started => "started"
  | progress => "progress"
  | success => "success"
  | degraded => "degraded"
  | rejected => "rejected"
  | failed => "failed"
  | timedOut => "timed_out"
  | dropped => "dropped"
  | none => "none"

inductive ActivityAttributeKey where
  | attempts
  | byteLength
  | capability
  | count
  | destination
  | droppedCount
  | duplicate
  | durationMs
  | endpoint
  | evictedCount
  | hops
  | hub
  | identity
  | interfaceClass
  | link
  | maxMessageBytes
  | maxNickBytes
  | maxRoomBytes
  | maxRooms
  | mdu
  | message
  | method
  | percent
  | profile
  | protocolVersion
  | queueCount
  | ratePerMinute
  | rejectedCount
  | reason
  | room
  | rttMs
  | sampledCount
  | session
  | sourceArea
  | state
  | timeSpanMs
  | validation
  deriving DecidableEq

def ActivityAttributeKey.name : ActivityAttributeKey → String
  | attempts => "attempts"
  | byteLength => "byte_length"
  | capability => "capability"
  | count => "count"
  | destination => "destination"
  | droppedCount => "dropped_count"
  | duplicate => "duplicate"
  | durationMs => "duration_ms"
  | endpoint => "endpoint"
  | evictedCount => "evicted_count"
  | hops => "hops"
  | hub => "hub"
  | identity => "identity"
  | interfaceClass => "interface_class"
  | link => "link"
  | maxMessageBytes => "max_message_bytes"
  | maxNickBytes => "max_nick_bytes"
  | maxRoomBytes => "max_room_bytes"
  | maxRooms => "max_rooms"
  | mdu => "mdu"
  | message => "message"
  | method => "method"
  | percent => "percent"
  | profile => "profile"
  | protocolVersion => "protocol_version"
  | queueCount => "queue_count"
  | ratePerMinute => "rate_per_minute"
  | rejectedCount => "rejected_count"
  | reason => "reason"
  | room => "room"
  | rttMs => "rtt_ms"
  | sampledCount => "sampled_count"
  | session => "session"
  | sourceArea => "source_area"
  | state => "state"
  | timeSpanMs => "time_span_ms"
  | validation => "validation"

inductive IdentifierKind where
  | destination
  | hub
  | identity
  | link
  | message
  | peer
  | room
  | session
  deriving DecidableEq

def IdentifierKind.name : IdentifierKind → String
  | destination => "destination"
  | hub => "hub"
  | identity => "identity"
  | link => "link"
  | message => "message"
  | peer => "peer"
  | room => "room"
  | session => "session"

def IdentifierKind.domainId : IdentifierKind → UInt8
  | destination => 1
  | hub => 2
  | identity => 3
  | link => 4
  | message => 5
  | peer => 6
  | room => 7
  | session => 8

inductive EndpointClass where
  | bluetooth
  | «local»
  | serial
  | tcp
  | udp
  | unknown
  deriving DecidableEq

def EndpointClass.name : EndpointClass → String
  | bluetooth => "bluetooth"
  | «local» => "local"
  | serial => "serial"
  | tcp => "tcp"
  | udp => "udp"
  | unknown => "unknown"

def EndpointClass.domainId : EndpointClass → UInt8
  | bluetooth => 1
  | «local» => 2
  | serial => 3
  | tcp => 4
  | udp => 5
  | unknown => 6

/-! ## Attributes -/

structure MaskedIdentifierV1 where
  kind : IdentifierKind
  pseudonym : String
  /-- Absent once the table of the capture is full. -/
  ordinal : Option UInt32

inductive ActivityValueV1 where
  | boolean (value : Bool)
  | code (value : String)
  | endpoint (endpointClass : EndpointClass)
  | identifier (value : MaskedIdentifierV1)
  | signed (value : Int64)
  | unsigned (value : UInt64)

structure ActivityAttributeV1 where
  key : ActivityAttributeKey
  value : ActivityValueV1

inductive SafeCopyValueV1 where
  | boolean (value : Bool)
  | code (value : String)
  | endpoint (endpointClass : EndpointClass) (pseudonym : String)
  | identifier (kind : IdentifierKind) (pseudonym : String)
  | signed (value : Int64)
  | unsigned (value : UInt64)

structure SafeCopyAttributeV1 where
  key : ActivityAttributeKey
  value : SafeCopyValueV1

inductive SafeCopyError where
  | missingEndpointPseudonym

def SafeCopyAttributeV1.fromMasked (shown : ActivityAttributeV1)
    (endpointPseudonym : Option String) :
    Except SafeCopyError SafeCopyAttributeV1 :=
  match shown.value with
  | .boolean value => .ok ⟨shown.key, .boolean value⟩
  | .code value => .ok ⟨shown.key, .code value⟩
  | .endpoint endpointClass =>
      match endpointPseudonym with
      | none => .error .missingEndpointPseudonym
      | some pseudonym => .ok ⟨shown.key, .endpoint endpointClass pseudonym⟩
  | .identifier value => .ok ⟨shown.key, .identifier value.kind value.pseudonym⟩
  | .signed value => .ok ⟨shown.key, .signed value⟩
  | .unsigned value => .ok ⟨shown.key, .unsigned value⟩

/-! ## Events -/

/-- The fields of a masked event and of a safe copy. -/
structure EventV1 (Attribute : Type) where
  version : UInt8
  sequence : UInt64
  captureSession : String
  captureGeneration : UInt64
  timestampUnixMs : UInt64
  elapsedMs : UInt64
  area : ActivityArea
  kind : String
  severity : ActivitySeverity
  captureProfile : CaptureProfile
  direction : ActivityDirection
  outcome : ActivityOutcome
  summaryCode : String
  attributes : List Attribute
  correlationId : Option String
  parentSequence : Option UInt64
  count : UInt32
  firstTimestampMs : Option UInt64
  lastTimestampMs : Option UInt64

abbrev ActivityEventV1 := EventV1 ActivityAttributeV1

abbrev SafeCopyEventV1 := EventV1 SafeCopyAttributeV1

/-- The safe copies of the attributes from an index on. -/
def safeCopyAttributes (endpointPseudonym : Nat → Option String) :
    Nat → List ActivityAttributeV1 → Except SafeCopyError (List SafeCopyAttributeV1)
  | _, [] => .ok []
  | index, shown :: rest =>
      match SafeCopyAttributeV1.fromMasked shown (endpointPseudonym index) with
      | .error error => .error error
      | .ok copied =>
          match safeCopyAttributes endpointPseudonym (index + 1) rest with
          | .error error => .error error
          | .ok others => .ok (copied :: others)

def EventV1.safeCopyWithEndpointPseudonyms (event : ActivityEventV1)
    (endpointPseudonym : Nat → Option String) :
    Except SafeCopyError SafeCopyEventV1 :=
  match safeCopyAttributes endpointPseudonym 0 event.attributes with
  | .error error => .error error
  | .ok attributes => .ok { event with attributes := attributes }

/-! ## Encoding -/

/-- A value with its tag. -/
private def tagged (type : String) (value : List Char) : List Char :=
  Json.object [("type", Json.string type), ("value", value)]

def ActivityValueV1.json : ActivityValueV1 → List Char
  | boolean value => tagged "boolean" (Json.boolean value)
  | code value => tagged "code" (Json.string value)
  | endpoint endpointClass =>
      tagged "endpoint" (Json.object [("class", Json.string endpointClass.name)])
  | identifier value =>
      tagged "identifier" (Json.object
        ([("kind", Json.string value.kind.name), ("pseudonym", Json.string value.pseudonym)] ++
        Json.optional "ordinal" (value.ordinal.map fun ordinal => Json.natural ordinal.toNat)))
  | signed value => tagged "signed" (Json.integer value.toInt)
  | unsigned value => tagged "unsigned" (Json.natural value.toNat)

def ActivityAttributeV1.json (shown : ActivityAttributeV1) : List Char :=
  Json.object [("key", Json.string shown.key.name), ("value", shown.value.json)]

def SafeCopyValueV1.json : SafeCopyValueV1 → List Char
  | boolean value => tagged "boolean" (Json.boolean value)
  | code value => tagged "code" (Json.string value)
  | endpoint endpointClass pseudonym =>
      tagged "endpoint" (Json.object
        [("class", Json.string endpointClass.name), ("pseudonym", Json.string pseudonym)])
  | identifier kind pseudonym =>
      tagged "identifier" (Json.object
        [("kind", Json.string kind.name), ("pseudonym", Json.string pseudonym)])
  | signed value => tagged "signed" (Json.integer value.toInt)
  | unsigned value => tagged "unsigned" (Json.natural value.toNat)

def SafeCopyAttributeV1.json (copied : SafeCopyAttributeV1) : List Char :=
  Json.object [("key", Json.string copied.key.name), ("value", copied.value.json)]

namespace EventV1

variable {Attribute : Type}

def json (attributeJson : Attribute → List Char) (event : EventV1 Attribute) : List Char :=
  Json.object
    ([("version", Json.natural event.version.toNat),
      ("sequence", Json.decimal event.sequence.toNat),
      ("capture_session", Json.string event.captureSession),
      ("capture_generation", Json.decimal event.captureGeneration.toNat),
      ("timestamp_unix_ms", Json.natural event.timestampUnixMs.toNat),
      ("elapsed_ms", Json.natural event.elapsedMs.toNat),
      ("area", Json.string event.area.name),
      ("kind", Json.string event.kind),
      ("severity", Json.string event.severity.name),
      ("capture_profile", Json.string event.captureProfile.name),
      ("direction", Json.string event.direction.name),
      ("outcome", Json.string event.outcome.name),
      ("summary_code", Json.string event.summaryCode),
      ("attributes", Json.array (event.attributes.map attributeJson))] ++
    Json.optional "correlation_id" (event.correlationId.map Json.string) ++
    Json.optional "parent_sequence"
      (event.parentSequence.map fun parent => Json.decimal parent.toNat) ++
    [("count", Json.natural event.count.toNat)] ++
    Json.optional "first_timestamp_ms"
      (event.firstTimestampMs.map fun first => Json.natural first.toNat) ++
    Json.optional "last_timestamp_ms"
      (event.lastTimestampMs.map fun last => Json.natural last.toNat))

/-- The number of bytes of an event. -/
def encodedBytes (attributeJson : Attribute → List Char) (event : EventV1 Attribute) : Nat :=
  textSize (event.json attributeJson)

end EventV1

def EventV1.wireBytes (event : ActivityEventV1) : Nat :=
  event.encodedBytes ActivityAttributeV1.json

def EventV1.copyBytes (event : SafeCopyEventV1) : Nat :=
  event.encodedBytes SafeCopyAttributeV1.json

/-! ## Sizes -/

namespace EventV1

variable {Attribute : Type}

/-- A value is absent, or both are there and in order. -/
def OptionWithin {Value : Type} (ordered : Value → Value → Prop)
    (first second : Option Value) : Prop :=
  ∀ value, first = some value → ∃ bound, second = some bound ∧ ordered value bound

/-- An event that is no longer than another one, field by field. -/
structure Within (attributeJson : Attribute → List Char)
    (event bound : EventV1 Attribute) : Prop where
  version : event.version = bound.version
  sequence : event.sequence ≤ bound.sequence
  captureSession : event.captureSession = bound.captureSession
  captureGeneration : event.captureGeneration ≤ bound.captureGeneration
  timestampUnixMs : event.timestampUnixMs ≤ bound.timestampUnixMs
  elapsedMs : event.elapsedMs ≤ bound.elapsedMs
  area : event.area = bound.area
  kind : event.kind = bound.kind
  severity : event.severity = bound.severity
  captureProfile : event.captureProfile = bound.captureProfile
  direction : event.direction = bound.direction
  outcome : event.outcome = bound.outcome
  summaryCode : event.summaryCode = bound.summaryCode
  attributes : List.Forall₂
    (fun first second => Json.Shorter (attributeJson first)
      (attributeJson second)) event.attributes bound.attributes
  correlationId : OptionWithin (fun first second => first = second)
    event.correlationId bound.correlationId
  parentSequence : OptionWithin (fun first second => first ≤ second)
    event.parentSequence bound.parentSequence
  count : event.count ≤ bound.count
  firstTimestampMs : OptionWithin (fun first second => first ≤ second)
    event.firstTimestampMs bound.firstTimestampMs
  lastTimestampMs : OptionWithin (fun first second => first ≤ second)
    event.lastTimestampMs bound.lastTimestampMs

private theorem optional_within {Value : Type}
    {ordered : Value → Value → Prop} {first second : Option Value}
    (within : OptionWithin ordered first second) (name : String)
    (text : Value → List Char) (shorter : ∀ left right, ordered left right →
      Json.Shorter (text left) (text right))
    {before after : List (String × List Char)}
    (rest : List.SublistForall₂ Json.ShorterEntry before after) :
    List.SublistForall₂ Json.ShorterEntry
      (Json.optional name (first.map text) ++ before)
      (Json.optional name (second.map text) ++ after) := by
  cases first with
  | none =>
      cases second with
      | none => exact rest
      | some bound => exact .cons_right rest
  | some value =>
      obtain ⟨bound, present, related⟩ := within value rfl
      subst present
      exact .cons ⟨rfl, shorter value bound related⟩ rest

theorem Within.encodedBytes_le {attributeJson : Attribute → List Char}
    {event bound : EventV1 Attribute} (within : Within attributeJson event bound) :
    event.encodedBytes attributeJson ≤ bound.encodedBytes attributeJson := by
  have attributes : Json.Shorter
      (Json.array (event.attributes.map attributeJson))
      (Json.array (bound.attributes.map attributeJson)) := by
    refine Json.shorter_array ?_
    rw [List.forall₂_map_left_iff, List.forall₂_map_right_iff]
    exact within.attributes
  have number {first second : UInt64} (ordered : first ≤ second) :
      Json.Shorter (Json.natural first.toNat) (Json.natural second.toNat) :=
    Json.shorter_natural (UInt64.le_iff_toNat_le.mp ordered)
  have decimal {first second : UInt64} (ordered : first ≤ second) :
      Json.Shorter (Json.decimal first.toNat) (Json.decimal second.toNat) :=
    Json.shorter_decimal (UInt64.le_iff_toNat_le.mp ordered)
  have count : Json.Shorter (Json.natural event.count.toNat)
      (Json.natural bound.count.toNat) :=
    Json.shorter_natural (UInt32.le_iff_toNat_le.mp within.count)
  refine Json.shorter_object ?_
  simp only [List.append_assoc]
  rw [within.version, within.captureSession, within.area, within.kind,
    within.severity, within.captureProfile, within.direction, within.outcome,
    within.summaryCode]
  refine .cons (.refl _) (.cons ⟨rfl, decimal within.sequence⟩
    (.cons (.refl _) (.cons ⟨rfl, decimal within.captureGeneration⟩
    (.cons ⟨rfl, number within.timestampUnixMs⟩
    (.cons ⟨rfl, number within.elapsedMs⟩ (.cons (.refl _) (.cons (.refl _)
    (.cons (.refl _) (.cons (.refl _) (.cons (.refl _) (.cons (.refl _)
    (.cons (.refl _) (.cons ⟨rfl, attributes⟩ ?_)))))))))))))
  refine optional_within within.correlationId "correlation_id" Json.string
    (fun left right same => same ▸ Json.Shorter.refl _) ?_
  refine optional_within within.parentSequence "parent_sequence" _
    (fun left right ordered => decimal ordered) (.cons ⟨rfl, count⟩ ?_)
  refine optional_within within.firstTimestampMs "first_timestamp_ms" _
    (fun left right ordered => number ordered) ?_
  have last := optional_within within.lastTimestampMs "last_timestamp_ms"
    (fun stamp : UInt64 => Json.natural stamp.toNat)
    (fun left right ordered => number ordered)
    (List.SublistForall₂.nil (R := Json.ShorterEntry) (l := []))
  rw [List.append_nil, List.append_nil] at last
  exact last

end EventV1

end Ratspeak.Activity
