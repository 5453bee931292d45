import Ratspeak.Library.Attempts
import Ratspeak.Library.Bytes
import Mathlib.Logic.Function.Basic

/-!
# Reactions and replies on the wire

A message carries a reaction or a reply in its custom fields: in the standard
fields where the target is a message hash, and in an envelope of one of two
versions besides.  The receiver reads the standard fields first.

The MessagePack writer and the accessors of the received fields are given; of
the values only their maps, texts and binaries matter here.
-/

namespace Ratspeak.Chat

open Library

inductive RatspeakChatExtension where
  | reaction (target emoji action : String)
  | reply (target preview : String) (targetSender : Option String)
  deriving DecidableEq

inductive SuppressionReason where
  | malformed
  | tooLarge
  deriving DecidableEq

inductive FieldMapKey where
  | integer (number : Int)
  | text (key : String)
  deriving DecidableEq

/-- A value of a map that is written. -/
inductive Scalar where
  | text (value : String)
  | binary (bytes : List UInt8)
  deriving DecidableEq

abbrev Entries := List (FieldMapKey × Scalar)

/-- What is used of the MessagePack writer, of the received field values and
of the reader of the old JSON shape. -/
structure Accessors (Value : Type) where
  writeMap : Entries → List UInt8
  /-- A field that was set to bytes. -/
  ofBinary : List UInt8 → Value
  fromEncoded : List UInt8 → Option Value
  asText : Value → Option String
  asBinary : Value → Option (List UInt8)
  /-- The map of a value whose keys differ. -/
  uniqueMap : Value → Option (FieldMapKey → Option Value)
  /-- The members of a JSON object, with those that are texts. -/
  jsonMembers : List UInt8 → Option (List (String × Option String))

structure LxMessage (Value : Type) where
  getField : UInt8 → Option Value
  contentBytes : List UInt8

/-! ## Constants -/

def fieldReplyTo : UInt8 := 0x30
def fieldReplyQuote : UInt8 := 0x31
def fieldReaction : UInt8 := 0x40
def fieldCustomType : UInt8 := 0xFB
def fieldCustomData : UInt8 := 0xFC
def reactionTo : Int := 0
def reactionContent : Int := 1

/-- The bytes of a text, and the text of bytes that are UTF-8. -/
def asBytes (text : String) : List UInt8 :=
  text.toUTF8.data.toList

def fromUtf8 (bytes : List UInt8) : Option String :=
  String.fromUTF8? ⟨bytes.toArray⟩

def ratspeakChatCustomTypeV1 : List UInt8 := asBytes "ratspeak.chat.v1"
def ratspeakChatCustomTypeV2 : List UInt8 := asBytes "ratspeak.chat.v2"
def legacyRatspeakReactionType : List UInt8 := asBytes "ratspeak.reaction"

def emitLegacyReplyReactionEnvelope : Bool := true

/-! ## Writing -/

/-- The hash that an identifier spells. -/
def idAs32Bytes (id : String) : Option (List UInt8) :=
  (hexDecode id).filter fun bytes => bytes.length = 32

def chatMapEntry (key : String) (value : Scalar) : FieldMapKey × Scalar :=
  (.text key, value)

def chatExtensionEntriesV1 : RatspeakChatExtension → Entries
  | .reaction target emoji action =>
      [chatMapEntry "kind" (.text "reaction"),
        chatMapEntry "target" (.text target),
        chatMapEntry "emoji" (.text emoji),
        chatMapEntry "action" (.text action)]
  | .reply target preview targetSender =>
      [chatMapEntry "kind" (.text "reply"),
        chatMapEntry "target" (.text target),
        chatMapEntry "preview" (.text preview)] ++
        (targetSender.map fun sender =>
          chatMapEntry "target_sender" (.text sender)).toList

/-- The sender of the second version, where there is one, is a hash too. -/
def senderEntryV2 : Option String → Option Entries
  | none => some []
  | some sender =>
      (idAs32Bytes sender).map fun bytes =>
        [chatMapEntry "target_sender" (.binary bytes)]

def chatExtensionEntriesV2 : RatspeakChatExtension → Option Entries
  | .reaction target emoji action => do
      let targetBytes ← idAs32Bytes target
      return [chatMapEntry "kind" (.text "reaction"),
        chatMapEntry "target" (.binary targetBytes),
        chatMapEntry "emoji" (.text emoji),
        chatMapEntry "action" (.text action)]
  | .reply target preview targetSender => do
      let targetBytes ← idAs32Bytes target
      let sender ← senderEntryV2 targetSender
      return [chatMapEntry "kind" (.text "reply"),
        chatMapEntry "target" (.binary targetBytes),
        chatMapEntry "preview" (.text preview)] ++ sender

def standardReactionEntries (target : List UInt8) (emoji : String) :
    Entries :=
  [(.integer reactionTo, .binary target), (.integer reactionContent, .binary (asBytes emoji))]

section

variable {Value : Type} (access : Accessors Value)

def encodeChatExtensionDataV1 (extension : RatspeakChatExtension) :
    List UInt8 :=
  access.writeMap (chatExtensionEntriesV1 extension)

def encodeChatExtensionDataV2 (extension : RatspeakChatExtension) :
    Option (List UInt8) :=
  (chatExtensionEntriesV2 extension).map access.writeMap

def encodeStandardReactionField (target : List UInt8) (emoji : String) :
    List UInt8 :=
  access.writeMap (standardReactionEntries target emoji)

/-- A removal has no standard field. -/
def standardChatFields :
    RatspeakChatExtension → List (UInt8 × List UInt8)
  | .reaction target emoji action =>
      match (idAs32Bytes target).filter fun _ => action = "add" with
      | some hash => [(fieldReaction, encodeStandardReactionField access hash emoji)]
      | none => []
  | .reply target preview _ =>
      match idAs32Bytes target with
      | some hash =>
          (fieldReplyTo, hash) ::
            if preview = "" then []
            else [(fieldReplyQuote, asBytes preview)]
      | none => []

def ratspeakChatCustomFields (extension : RatspeakChatExtension) :
    Option (List (UInt8 × List UInt8)) :=
  let envelope :=
    if emitLegacyReplyReactionEnvelope then
      match encodeChatExtensionDataV2 access extension with
      | some payload =>
          [(fieldCustomType, ratspeakChatCustomTypeV2), (fieldCustomData, payload)]
      | none =>
          [(fieldCustomType, ratspeakChatCustomTypeV1),
            (fieldCustomData, encodeChatExtensionDataV1 access extension)]
    else []
  let fields := standardChatFields access extension ++ envelope
  if fields = [] then none else some fields

/-- The reaction is a MessagePack value of its own, the other fields are
bytes. -/
def setField (getField : UInt8 → Option Value)
    (field : UInt8 × List UInt8) : Option (UInt8 → Option Value) :=
  if field.1 = fieldReaction then
    (access.fromEncoded field.2).map fun value =>
      Function.update getField field.1 (some value)
  else
    some (Function.update getField field.1 (some (access.ofBinary field.2)))

/-- A message with the custom fields. -/
def createMessage (content : List UInt8)
    (fields : List (UInt8 × List UInt8)) : Option (LxMessage Value) :=
  (fields.foldlM (setField access) fun _ => none).map fun getField =>
    ⟨getField, content⟩

/-! ## Reading -/

/-- A hash, or the text that spells one. -/
def standardHashHex (bytes : List UInt8) : Option String :=
  if bytes.length = 32 then some (hexEncode bytes)
  else
    ((fromUtf8 bytes).filter fun value =>
      bytes.length = 64 ∧ (idAs32Bytes value).isSome).map fun value =>
        String.ofList (value.toList.map Char.toLower)

def chatFieldText (value : Value) : Option String :=
  (access.asText value).or ((access.asBinary value).bind fromUtf8)

/-- What is known of an old reaction so far. -/
structure LegacyReaction where
  keys : List String
  target : Option String
  emoji : Option String
  action : Option String

def LegacyReaction.visit (found : LegacyReaction)
    (member : String × Option String) : Option LegacyReaction :=
  if found.keys.length = 64 ∨ member.1 ∈ found.keys then none
  else
    let keyed := { found with keys := found.keys ++ [member.1] }
    if member.1 = "message_id" then
      member.2.map fun value => { keyed with target := some value }
    else if member.1 = "emoji" then
      member.2.map fun value => { keyed with emoji := some value }
    else if member.1 = "action" then
      member.2.map fun value => { keyed with action := some value }
    else some keyed

def decodeLegacyReactionJson (bytes : List UInt8) :
    Option RatspeakChatExtension := do
  let members ← access.jsonMembers bytes
  let found ← members.foldlM LegacyReaction.visit ⟨[], none, none, none⟩
  let target ← found.target.filter fun value => value ≠ ""
  let emoji ← found.emoji.filter fun value => value ≠ ""
  return .reaction target emoji (found.action.getD "add")

def maxLegacyReactionJsonBytes : Nat := 4096

def decodeStandardReaction (data : Value) :
    Except SuppressionReason RatspeakChatExtension := do
  let map ← okOr (access.uniqueMap data) .malformed
  let chosen ← okOr (map (.integer reactionTo)) .malformed
  let bytes ← okOr
    ((access.asBinary chosen).or ((access.asText chosen).map asBytes))
    .malformed
  let target ← okOr (standardHashHex bytes) .malformed
  let content ← okOr (map (.integer reactionContent)) .malformed
  let emoji ← okOr ((chatFieldText access content).filter fun text =>
    text ≠ "") .malformed
  return .reaction target emoji "add"

/-- The quoted text; without the field there is none. -/
def decodeQuote (quote : Option Value) : Except SuppressionReason String :=
  match quote with
  | some value => okOr ((access.asBinary value).bind fromUtf8) .malformed
  | none => .ok ""

def decodeStandardReply (target : Value) (quote : Option Value) :
    Except SuppressionReason RatspeakChatExtension := do
  let bytes ← okOr (access.asBinary target) .malformed
  let hash ← okOr (standardHashHex bytes) .malformed
  let preview ← decodeQuote access quote
  return .reply hash preview none

/-- A reference of the envelope, in the form of its version. -/
def decodeTarget (v2 : Bool) (map : FieldMapKey → Option Value)
    (key : String) : Except SuppressionReason String := do
  let value ← okOr (map (.text key)) .malformed
  if v2 then
    okOr (((access.asBinary value).filter fun bytes =>
      bytes.length = 32).map hexEncode) .malformed
  else
    okOr ((access.asText value).filter fun text => text ≠ "") .malformed

/-- A text that may be missing, but is nothing else. -/
def optionalText (map : FieldMapKey → Option Value) (key default : String) :
    Except SuppressionReason String :=
  match map (.text key) with
  | some value => okOr (access.asText value) .malformed
  | none => .ok default

def optionalTarget (v2 : Bool) (map : FieldMapKey → Option Value)
    (key : String) : Except SuppressionReason (Option String) :=
  match map (.text key) with
  | some _ => (decodeTarget access v2 map key).map some
  | none => .ok none

def decodeEnvelope (v2 : Bool) (data : Option Value) :
    Except SuppressionReason (Option RatspeakChatExtension) := do
  let bytes ← okOr (data.bind access.asBinary) .malformed
  let value ← okOr (access.fromEncoded bytes) .malformed
  let map ← okOr (access.uniqueMap value) .malformed
  let kind ← okOr ((map (.text "kind")).bind access.asText) .malformed
  if kind = "reaction" then do
    let target ← decodeTarget access v2 map "target"
    let emoji ← okOr (((map (.text "emoji")).bind access.asText).filter
      fun text => text ≠ "") .malformed
    let action ← optionalText access map "action" "add"
    return some (.reaction target emoji action)
  else if kind = "reply" then do
    let sender ← optionalTarget access v2 map "target_sender"
    let target ← decodeTarget access v2 map "target"
    let preview ← optionalText access map "preview" ""
    return some (.reply target preview sender)
  else return none

def decodeCustom (message : LxMessage Value) (customType : List UInt8) :
    Except SuppressionReason (Option RatspeakChatExtension) :=
  if customType = legacyRatspeakReactionType then
    if message.contentBytes.length > maxLegacyReactionJsonBytes then
      .error .tooLarge
    else
      (okOr (decodeLegacyReactionJson access message.contentBytes) .malformed).map some
  else if customType = ratspeakChatCustomTypeV2 then
    decodeEnvelope access true (message.getField fieldCustomData)
  else if customType = ratspeakChatCustomTypeV1 then
    decodeEnvelope access false (message.getField fieldCustomData)
  else .ok none

def decodeRatspeakChatExtensionChecked (message : LxMessage Value) :
    Except SuppressionReason (Option RatspeakChatExtension) :=
  match message.getField fieldReaction, message.getField fieldReplyTo with
  | some data, _ => (decodeStandardReaction access data).map some
  | none, some target =>
      (decodeStandardReply access target (message.getField fieldReplyQuote)).map some
  | none, none =>
      match (message.getField fieldCustomType).bind access.asBinary with
      | none => .ok none
      | some customType => decodeCustom access message customType

end

end Ratspeak.Chat
