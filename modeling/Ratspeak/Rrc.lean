import Mathlib.Algebra.Ring.Int.Defs
import Ratspeak.Library.Bytes
import Ratspeak.Library.Text

/-!
# The relay chat envelope

The wire values, envelopes and bodies that a hub and its clients exchange.
Decoding the bytes of a packet is left to the codec library: an inbound
packet arrives here as a decoded envelope.  What the program measures of an
outbound one is the length of its canonical encoding.
-/

namespace Ratspeak

open Library

/-- A link between two destinations. -/
abbrev LinkId := Bytes 16

/-- The hash that names an identity. -/
abbrev IdentityHash := Bytes 16

/-! ## Values -/

/-- A value of the wire codec. -/
inductive Value where
  | integer (value : Int)
  | bytes (bytes : List UInt8)
  | float (bits : BitVec 64)
  | text (text : String)
  | bool (value : Bool)
  | null
  | tag (tag : Nat) (value : Value)
  | array (values : List Value)
  | map (entries : List (Value × Value))

/-- Bytes of an item head that carries the given argument. -/
def headLen (argument : Nat) : Nat :=
  if argument < 24 then 1
  else if argument < 2 ^ 8 then 2
  else if argument < 2 ^ 16 then 3
  else if argument < 2 ^ 32 then 5
  else 9

/-- Whether a double is exactly a binary float with the given number of
fraction bits, smallest normal exponent and largest exponent. -/
def fitsFloat (bits : BitVec 64) (fraction : Nat) (least most : Int) : Bool :=
  let mantissa : Nat := bits.toNat % 2 ^ 52
  let field : Nat := bits.toNat / 2 ^ 52 % 2 ^ 11
  let exponent : Int := (field : Int) - 1023
  if field = 0 then mantissa == 0
  else if field = 2047 then
    mantissa % 2 ^ (52 - fraction) == 0 && (mantissa == 0 || 2 ^ 51 ≤ mantissa)
  else if most < exponent then false
  else if least ≤ exponent then mantissa % 2 ^ (52 - fraction) == 0
  else if least - fraction ≤ exponent then
    (2 ^ 52 + mantissa) % 2 ^ (52 - fraction + (least - exponent).toNat) == 0
  else false

/-- A float is written in the shortest form that keeps its value. -/
def floatLen (bits : BitVec 64) : Nat :=
  if fitsFloat bits 10 (-14) 15 then 3
  else if fitsFloat bits 23 (-126) 127 then 5
  else 9

namespace Value

mutual

/-- Length of the canonical encoding. -/
def encodedLen : Value → Nat
  | integer (.ofNat value) => headLen value
  | integer (.negSucc value) => headLen value
  | bytes content => headLen content.length + content.length
  | float bits => floatLen bits
  | text content => headLen content.utf8ByteSize + content.utf8ByteSize
  | bool _ => 1
  | null => 1
  | tag number value => headLen number + value.encodedLen
  | array values => headLen values.length + encodedLenList values
  | map entries => headLen entries.length + encodedLenMap entries

def encodedLenList : List Value → Nat
  | [] => 0
  | value :: rest => value.encodedLen + encodedLenList rest

def encodedLenMap : List (Value × Value) → Nat
  | [] => 0
  | (key, value) :: rest => key.encodedLen + value.encodedLen + encodedLenMap rest

end

def unsigned (value : Nat) : Value :=
  .integer value

def asUnsigned : Value → Option Nat
  | integer value =>
      if 0 ≤ value ∧ value < 2 ^ 64 then some value.toNat else none
  | _ => none

def asText : Value → Option String
  | text content => some content
  | _ => none

/-- A map whose keys are unsigned integers. -/
def integerMap (entries : List (Nat × Value)) : Value :=
  .map (entries.map fun entry => (unsigned entry.1, entry.2))

end Value

def mapGet (fields : List (Value × Value)) (key : Nat) : Option Value :=
  fields.findSome? fun field =>
    if field.1.asUnsigned = some key then some field.2 else none

/-- Why an envelope, a body or a name is refused. -/
inductive ProtocolError where
  | missingField (field : Nat)
  | invalidField (field : Nat)
  | invalidNickname
  | nicknameTooLong (maxBytes : Nat)
  | invalidRoom
  | roomTooLong (maxBytes : Nat)
  deriving DecidableEq

def requiredUnsigned (fields : List (Value × Value)) (key : Nat) :
    Except ProtocolError Nat :=
  match mapGet fields key with
  | none => .error (.missingField key)
  | some value =>
      match value.asUnsigned with
      | none => .error (.invalidField key)
      | some number => .ok number

def fixedBytes (length : Nat) (fields : List (Value × Value)) (key : Nat) :
    Except ProtocolError (Bytes length) :=
  match mapGet fields key with
  | none => .error (.missingField key)
  | some (.bytes content) =>
      match Bytes.ofList length content with
      | none => .error (.invalidField key)
      | some fixed => .ok fixed
  | some _ => .error (.invalidField key)

/-! ## Envelopes -/

inductive MessageType where
  | hello
  | welcome
  | join
  | joined
  | part
  | parted
  | message
  | notice
  | action
  | ping
  | pong
  | error
  | resourceEnvelope
  | unknown (code : Nat)
  deriving DecidableEq

def MessageType.wire : MessageType → Nat
  | hello => 1
  | welcome => 2
  | join => 10
  | joined => 11
  | part => 12
  | parted => 13
  | message => 20
  | notice => 21
  | action => 22
  | ping => 30
  | pong => 31
  | error => 40
  | resourceEnvelope => 50
  | unknown code => code

/-- The id of an envelope: the bytes that came with it, or random bytes drawn
where the envelope was made. -/
inductive MessageId where
  | drawn
  | wire (bytes : Bytes 8)
  deriving DecidableEq

structure Envelope where
  messageType : MessageType
  messageId : MessageId
  timestampMs : Nat
  source : IdentityHash
  room : Option String
  body : Option Value
  nickname : Option String
  destination : Option IdentityHash

def kVersion : Nat := 0
def kType : Nat := 1
def kId : Nat := 2
def kTimestamp : Nat := 3
def kSource : Nat := 4
def kRoom : Nat := 5
def kBody : Nat := 6
def kNickname : Nat := 7
def kDestination : Nat := 8

def rrcVersion : Nat := 1

namespace Envelope

/-- A fresh envelope, stamped with the clock of the maker. -/
def new (nowMs : Nat) (messageType : MessageType) (source : IdentityHash) :
    Envelope where
  messageType := messageType
  messageId := .drawn
  timestampMs := nowMs
  source := source
  room := none
  body := none
  nickname := none
  destination := none

def pong (nowMs : Nat) (source : IdentityHash) (ping : Envelope) :
    Envelope :=
  { new nowMs .pong source with body := ping.body }

def roomCommand (nowMs : Nat) (messageType : MessageType)
    (source : IdentityHash) (room nickname : String) : Envelope :=
  { new nowMs messageType source with
    room := some room
    nickname := some nickname }

def roomText (nowMs : Nat) (messageType : MessageType)
    (source : IdentityHash) (room nickname text : String) : Envelope :=
  { roomCommand nowMs messageType source room nickname with
    body := some (.text text) }

def textBody (envelope : Envelope) : Option String :=
  envelope.body.bind Value.asText

/-- The eight bytes of the id. -/
def idBytes (envelope : Envelope) : List UInt8 :=
  match envelope.messageId with
  | .drawn => List.replicate 8 0
  | .wire bytes => bytes.val

/-- The fields that are sent, in the order of their keys. -/
def wireFields (envelope : Envelope) : List (Nat × Value) :=
  [(kVersion, .unsigned rrcVersion),
    (kType, .unsigned envelope.messageType.wire),
    (kId, .bytes envelope.idBytes),
    (kTimestamp, .unsigned envelope.timestampMs),
    (kSource, .bytes envelope.source.val)] ++
    (envelope.room.map fun room => (kRoom, Value.text room)).toList ++
    (envelope.body.map fun body => (kBody, body)).toList ++
    (envelope.nickname.map fun nickname =>
      (kNickname, Value.text nickname)).toList ++
    (envelope.destination.map fun destination =>
      (kDestination, Value.bytes destination.val)).toList

/-- Length of the encoded envelope. -/
def encodedLen (envelope : Envelope) : Nat :=
  (Value.integerMap envelope.wireFields).encodedLen

end Envelope

/-! ## Bodies -/

/-- A roster: an array of identity hashes. -/
def memberList (members : List IdentityHash) : Value :=
  .array (members.map fun member => .bytes member.val)

/-- The identity hashes of a roster body; anything else in it is skipped. -/
def memberIdentities (envelope : Envelope) : List IdentityHash :=
  match envelope.body with
  | some (.array values) =>
      values.filterMap fun value =>
        match value with
        | .bytes content => Bytes.ofList 16 content
        | _ => none
  | _ => []

/-- A roster is read as it was built. -/
theorem memberIdentities_memberList (members : List IdentityHash)
    (envelope : Envelope) (body : envelope.body = some (memberList members)) :
    memberIdentities envelope = members := by
  unfold memberIdentities memberList at *
  rw [body]
  simp only [List.filterMap_map, Function.comp_def]
  have each : ∀ member : IdentityHash,
      Bytes.ofList 16 member.val = some member :=
    fun member => Bytes.ofList_val member
  simp only [each, List.filterMap_some]

def helloCapabilitiesKey : Nat := 2

def capResourceEnvelope : Nat := 0
def capAction : Nat := 1
def capDirectNotice : Nat := 2
def capRejoinGrace : Nat := 3

/-- Capability flags by number, a later entry before an earlier one. -/
abbrev Capabilities := List (Nat × Bool)

namespace Capabilities

def insert (capability : Nat) (enabled : Bool) (capabilities : Capabilities) :
    Capabilities :=
  (capabilities.filter fun entry => entry.1 ≠ capability) ++
    [(capability, enabled)]

def get (capabilities : Capabilities) (capability : Nat) : Option Bool :=
  (capabilities.find? fun entry => entry.1 = capability).map Prod.snd

end Capabilities

/-- Read a map of flags: an entry that is no flag is skipped, a key that is
no unsigned integer spoils the map. -/
def integerBoolMapFrom (read : Capabilities) :
    List (Value × Value) → Option Capabilities
  | [] => some read
  | (key, value) :: rest =>
      match key.asUnsigned with
      | none => none
      | some number =>
          match value with
          | .bool enabled => integerBoolMapFrom (read.insert number enabled) rest
          | _ => integerBoolMapFrom read rest

def asIntegerBoolMap : Value → Option Capabilities
  | .map entries => integerBoolMapFrom [] entries
  | _ => none

/-- The capabilities of a HELLO; a body of another shape announces none. -/
def helloCapabilities (envelope : Envelope) : Capabilities :=
  match envelope.body with
  | some (.map body) =>
      ((mapGet body helloCapabilitiesKey).bind asIntegerBoolMap).getD []
  | _ => []

structure HubLimits where
  maxNickBytes : Option Nat
  maxRoomNameBytes : Option Nat
  maxMessageBodyBytes : Option Nat
  maxRoomsPerSession : Option Nat
  rateMessagesPerMinute : Option Nat

structure WelcomeInfo where
  hubName : Option String
  hubVersion : Option String
  capabilities : Capabilities
  limits : HubLimits

/-- The body of a WELCOME; what is absent is left out. -/
def welcomeBody (info : WelcomeInfo) : Value :=
  let limits := [(0, info.limits.maxNickBytes),
    (1, info.limits.maxRoomNameBytes),
    (2, info.limits.maxMessageBodyBytes),
    (3, info.limits.maxRoomsPerSession),
    (4, info.limits.rateMessagesPerMinute)].filterMap
      fun (key, limit) => limit.map fun value => (key, Value.unsigned value)
  .integerMap <|
    (info.hubName.map fun name => (0, Value.text name)).toList ++
    (info.hubVersion.map fun version => (1, Value.text version)).toList ++
    [(2, Value.integerMap
      (info.capabilities.map fun (capability, enabled) =>
        (capability, Value.bool enabled)))] ++
    if limits.isEmpty then [] else [(3, Value.integerMap limits)]

def resourceId : Nat := 0
def resourceKind : Nat := 1
def resourceSize : Nat := 2
def resourceSha256 : Nat := 3
def resourceEncoding : Nat := 4

structure ResourceEnvelopeBody where
  id : MessageId
  kind : String
  size : Nat
  sha256 : Option (Bytes 32)
  encoding : Option String

def resourceEnvelopeBody (idBytes : List UInt8) (body : ResourceEnvelopeBody) :
    Value :=
  .integerMap <|
    [(resourceId, Value.bytes idBytes),
      (resourceKind, Value.text body.kind),
      (resourceSize, Value.unsigned body.size)] ++
    (body.sha256.map fun digest =>
      (resourceSha256, Value.bytes digest.val)).toList ++
    (body.encoding.map fun encoding =>
      (resourceEncoding, Value.text encoding)).toList

def parseResourceEnvelope (envelope : Envelope) :
    Except ProtocolError ResourceEnvelopeBody := do
  match envelope.body with
  | some (.map body) =>
      let id ← fixedBytes 8 body resourceId
      let kind ← match mapGet body resourceKind with
        | some (.text kind) => .ok kind
        | some _ => .error (.invalidField resourceKind)
        | none => .error (.missingField resourceKind)
      let size ← requiredUnsigned body resourceSize
      if size = 0 then .error (.invalidField resourceSize)
      let sha256 ← match mapGet body resourceSha256 with
        | some _ => some <$> fixedBytes 32 body resourceSha256
        | none => .ok none
      let encoding := match mapGet body resourceEncoding with
        | some (.text encoding) => some encoding
        | _ => none
      return {
        id := .wire id
        kind := kind
        size := size
        sha256 := sha256
        encoding := encoding }
  | _ => .error (.invalidField kBody)

/-! ## Names -/

def normalizeNickname (value : String) (maxBytes : Nat) :
    Except ProtocolError String :=
  let nickname := trim value
  if nickname.isEmpty ∨ nickname.toList.any
      (fun char => char == '\n' || char == '\r' || char == '\x00') then
    .error .invalidNickname
  else if 0 < maxBytes ∧ maxBytes < nickname.utf8ByteSize then
    .error (.nicknameTooLong maxBytes)
  else .ok nickname

def normalizeRoom [UnicodeTables] (value : String) (maxBytes : Nat) :
    Except ProtocolError String :=
  let room := toLowercase (trim value)
  if room.isEmpty then .error .invalidRoom
  else if 0 < maxBytes ∧ maxBytes < room.utf8ByteSize then
    .error (.roomTooLong maxBytes)
  else .ok room

def maxDisplayTimestampMs : Nat := 8640000000000000

def sanitizeDisplayTimestampMs (timestampMs receivedAtMs : Nat) : Nat :=
  if timestampMs ≤ maxDisplayTimestampMs then timestampMs
  else min receivedAtMs maxDisplayTimestampMs

end Ratspeak
