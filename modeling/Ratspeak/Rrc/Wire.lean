import Ratspeak.Rrc
import Ratspeak.Library.Programs

/-!
# The envelope codec

Envelopes as they stand on the wire.  The codec of values belongs to another
library and is a parameter; what is modelled is how an envelope becomes a map
of integer keys and how such a map is read.
-/

namespace Ratspeak

open Library

/-- The reader and the writer of values.  The reader says how far it came. -/
structure Cbor where
  intoWriter : Value → Except String (List UInt8)
  fromReader : List UInt8 → Except String (Value × Nat)

/-- The value is written, and read again to the end of its bytes. -/
def Cbor.Reads (cbor : Cbor) (value : Value) : Prop :=
  ∃ bytes, cbor.intoWriter value = .ok bytes ∧
    cbor.fromReader bytes = .ok (value, bytes.length)

/-- What is written is read again, and to its end. -/
def Cbor.Correct (cbor : Cbor) : Prop :=
  ∀ value, cbor.Reads value

namespace MessageType

def fromWire (value : Nat) : MessageType :=
  match value with
  | 1 => .hello
  | 2 => .welcome
  | 10 => .join
  | 11 => .joined
  | 12 => .part
  | 13 => .parted
  | 20 => .message
  | 21 => .notice
  | 22 => .action
  | 30 => .ping
  | 31 => .pong
  | 40 => .error
  | 50 => .resourceEnvelope
  | other => .unknown other

/-- A type that some number of 64 bits is read as. -/
def Canonical (messageType : MessageType) : Prop :=
  ∃ value < 2 ^ 64, messageType = fromWire value

theorem wire_fromWire (value : Nat) : (fromWire value).wire = value := by
  unfold fromWire
  split <;> rfl

theorem Canonical.wire_lt {messageType : MessageType}
    (canonical : messageType.Canonical) : messageType.wire < 2 ^ 64 := by
  obtain ⟨value, fits, isType⟩ := canonical
  rw [isType, wire_fromWire]
  exact fits

theorem Canonical.fromWire_wire {messageType : MessageType}
    (canonical : messageType.Canonical) :
    fromWire messageType.wire = messageType := by
  obtain ⟨value, -, isType⟩ := canonical
  rw [isType, wire_fromWire]

end MessageType

namespace Wire

/-- Why bytes are no envelope. -/
inductive DecodeError where
  | invalidCbor (text : String)
  | notAMap
  | invalidKey
  | unsupportedVersion (version : Nat)
  | field (error : ProtocolError)
deriving DecidableEq

structure Envelope where
  version : UInt64
  messageType : MessageType
  messageId : Bytes 8
  timestampMs : UInt64
  source : IdentityHash
  room : Option String
  body : Option Value
  nickname : Option String
  destination : Option IdentityHash

def invalidCbor {Result : Type} :
    Except String Result → Except DecodeError Result
  | .ok result => .ok result
  | .error text => .error (.invalidCbor text)

/-- A failure of one field is one of the envelope. -/
def ofField {Result : Type} :
    Except ProtocolError Result → Except DecodeError Result
  | .ok result => .ok result
  | .error error => .error (.field error)

/-! ## Writing -/

/-- The fields in the order in which they are gathered. -/
def fields (envelope : Envelope) : List (Nat × Value) :=
  [(kVersion, .unsigned envelope.version.toNat),
    (kType, .unsigned envelope.messageType.wire),
    (kId, .bytes envelope.messageId.val),
    (kTimestamp, .unsigned envelope.timestampMs.toNat),
    (kSource, .bytes envelope.source.val)] ++
    (envelope.room.map fun room => (kRoom, Value.text room)).toList ++
    (envelope.body.map fun body => (kBody, body)).toList ++
    (envelope.nickname.map fun nickname =>
      (kNickname, Value.text nickname)).toList ++
    (envelope.destination.map fun destination =>
      (kDestination, Value.bytes destination.val)).toList

def encode (cbor : Cbor) (envelope : Envelope) :
    Except DecodeError (List UInt8) :=
  let sorted := (fields envelope).mergeSort fun first second =>
    first.1 ≤ second.1
  invalidCbor (cbor.intoWriter (Value.integerMap sorted))

/-! ## Reading -/

def optionalText (fields : List (Value × Value)) (key : Nat) :
    Except ProtocolError (Option String) :=
  match mapGet fields key with
  | some (.text text) => .ok (some text)
  | some _ => .error (.invalidField key)
  | none => .ok none

def optionalBytes (length : Nat) (fields : List (Value × Value))
    (key : Nat) : Except ProtocolError (Option (Bytes length)) :=
  match mapGet fields key with
  | some _ => some <$> fixedBytes length fields key
  | none => .ok none

def decodeFields (fields : List (Value × Value)) :
    Except DecodeError Envelope :=
  if fields.any fun field => field.1.asUnsigned.isNone then
    .error .invalidKey
  else do
    let version ← ofField (requiredUnsigned fields kVersion)
    if version ≠ rrcVersion then .error (.unsupportedVersion version)
    else
      let messageType := MessageType.fromWire (← ofField (requiredUnsigned fields kType))
      let messageId ← ofField (fixedBytes 8 fields kId)
      let timestampMs ← ofField (requiredUnsigned fields kTimestamp)
      let source ← ofField (fixedBytes 16 fields kSource)
      let room ← ofField (optionalText fields kRoom)
      let body := mapGet fields kBody
      let nickname ← ofField (optionalText fields kNickname)
      let destination ← ofField (optionalBytes 16 fields kDestination)
      return {
        version := UInt64.ofNat version
        messageType := messageType
        messageId := messageId
        timestampMs := UInt64.ofNat timestampMs
        source := source
        room := room
        body := body
        nickname := nickname
        destination := destination }

def decode (cbor : Cbor) (data : List UInt8) :
    Except DecodeError Envelope := do
  let (value, position) ← invalidCbor (cbor.fromReader data)
  if position ≠ data.length then
    .error (.invalidCbor "trailing bytes after envelope")
  else
    match value with
    | .map fields => decodeFields fields
    | _ => .error .notAMap

end Wire

/-! ## Reading a WELCOME -/

/-- A number of the platform's size, which is 64 bits. -/
def mapUsize (entries : List (Value × Value)) (key : Nat) : Option Nat :=
  (mapGet entries key).bind Value.asUnsigned

def noLimits : HubLimits where
  maxNickBytes := none
  maxRoomNameBytes := none
  maxMessageBodyBytes := none
  maxRoomsPerSession := none
  rateMessagesPerMinute := none

def parseLimits (entries : List (Value × Value)) : HubLimits where
  maxNickBytes := mapUsize entries 0
  maxRoomNameBytes := mapUsize entries 1
  maxMessageBodyBytes := mapUsize entries 2
  maxRoomsPerSession := mapUsize entries 3
  rateMessagesPerMinute := mapUsize entries 4

def parseWelcome (envelope : Envelope) : WelcomeInfo :=
  match envelope.body with
  | some (.map body) =>
      { hubName := (mapGet body 0).bind Value.asText
        hubVersion := (mapGet body 1).bind Value.asText
        capabilities := ((mapGet body 2).bind asIntegerBoolMap).getD []
        limits :=
          match mapGet body 3 with
          | some (.map entries) => parseLimits entries
          | _ => noLimits }
  | _ =>
      { hubName := none
        hubVersion := none
        capabilities := []
        limits := noLimits }

end Ratspeak
