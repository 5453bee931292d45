import Ratspeak.Chat.Extension

/-!
# What the receiver reads is what was sent

Whichever fields a reaction or a reply is written to, a receiver reads the
same one back, up to the form of its identifiers, or rejects it where a target,
an emoji or a sender is empty.
-/

namespace Ratspeak.Chat

open Library

/-! ## Bytes of texts -/

@[simp]
theorem fromUtf8_asBytes (text : String) :
    fromUtf8 (asBytes text) = some text := by
  have same : (⟨(asBytes text).toArray⟩ : ByteArray) = text.toUTF8 := rfl
  rw [fromUtf8, same]
  simp only [String.fromUTF8?, String.toUTF8_eq_toByteArray]
  rw [dif_pos text.isValidUTF8]
  rfl

theorem length_of_idAs32Bytes {id : String} {hash : List UInt8}
    (isHash : idAs32Bytes id = some hash) : hash.length = 32 := by
  have passes := (Option.filter_eq_some_iff.mp isHash).2
  exact of_decide_eq_true passes

theorem standardHashHex_hash {hash : List UInt8} (length : hash.length = 32) :
    standardHashHex hash = some (hexEncode hash) := by
  rw [standardHashHex, if_pos length]

theorem idAs32Bytes_hexEncode {hash : List UInt8}
    (length : hash.length = 32) : idAs32Bytes (hexEncode hash) = some hash := by
  simp [idAs32Bytes, hexDecode_hexEncode, length]

/-! ## What the receiver should read -/

/-- A hash is written in lowercase. -/
def normalId (id : String) : String :=
  match idAs32Bytes id with
  | some hash => hexEncode hash
  | none => id

/-- The sender of a message is carried only where the target is no hash. -/
def normalised : RatspeakChatExtension → RatspeakChatExtension
  | .reaction target emoji action => .reaction (normalId target) emoji action
  | .reply target preview targetSender =>
      .reply (normalId target) preview
        (if (idAs32Bytes target).isSome then none else targetSender)

/-- What is required is there, and so is the sender where it is carried. -/
def Complete : RatspeakChatExtension → Prop
  | .reaction target emoji _ => target ≠ "" ∧ emoji ≠ ""
  | .reply target _ targetSender =>
      target ≠ "" ∧ (idAs32Bytes target = none → targetSender ≠ some "")

instance (extension : RatspeakChatExtension) :
    Decidable (Complete extension) := by
  unfold Complete
  split
  · infer_instance
  · infer_instance

/-- Two identifiers name one message. -/
def SameMessage (left right : String) : Prop :=
  idAs32Bytes left = idAs32Bytes right ∧ (idAs32Bytes left = none → left = right)

theorem sameMessage_normalId (id : String) : SameMessage (normalId id) id := by
  unfold SameMessage normalId
  split
  · rename_i hash isHash
    have back := idAs32Bytes_hexEncode (length_of_idAs32Bytes isHash)
    refine ⟨by rw [back, isHash], fun never => ?_⟩
    rw [back] at never
    cases never
  · exact ⟨rfl, fun _ => rfl⟩

/-- The same reaction to, or the same reply to, the same message. -/
def SameExtension : RatspeakChatExtension → RatspeakChatExtension → Prop
  | .reaction target emoji action, .reaction target' emoji' action' =>
      SameMessage target' target ∧ emoji' = emoji ∧ action' = action
  | .reply target preview _, .reply target' preview' _ =>
      SameMessage target' target ∧ preview' = preview
  | _, _ => False

theorem sameExtension_normalised (extension : RatspeakChatExtension) :
    SameExtension extension (normalised extension) := by
  cases extension with
  | reaction target emoji action => exact ⟨sameMessage_normalId target, rfl, rfl⟩
  | reply target preview targetSender => exact ⟨sameMessage_normalId target, rfl⟩

/-! ## What the writer and the accessors are relied on for -/

section

variable {Value : Type} (access : Accessors Value)

/-- A value of a received map is the one that was written. -/
def Shows (value : Value) : Scalar → Prop
  | .text text => access.asText value = some text ∧
      access.asBinary value = none
  | .binary bytes => access.asBinary value = some bytes ∧
      access.asText value = none

/-- The map shows what was written, key by key. -/
def Maps (entries : Entries) (map : FieldMapKey → Option Value) : Prop :=
  ∀ key, match entries.lookup key with
    | none => map key = none
    | some scalar => ∃ value, map key = some value ∧
        Shows access value scalar

/-- A map that is written is read back. -/
def Reads (entries : Entries) : Prop :=
  ∃ value map, access.fromEncoded (access.writeMap entries) = some value ∧
    access.uniqueMap value = some map ∧ Maps access entries map

/-- The writer and the accessors are exact on what an extension writes. -/
structure Exact (extension : RatspeakChatExtension) : Prop where
  binary : ∀ bytes, access.asBinary (access.ofBinary bytes) = some bytes
  v1 : Reads access (chatExtensionEntriesV1 extension)
  v2 : ∀ entries, chatExtensionEntriesV2 extension = some entries → Reads access entries
  standard : ∀ target emoji action hash,
    extension = .reaction target emoji action →
      idAs32Bytes target = some hash → Reads access (standardReactionEntries hash emoji)

end

section

variable {Value : Type} {access : Accessors Value}

theorem Maps.found {entries : Entries} {map : FieldMapKey → Option Value}
    (maps : Maps access entries map) {key : FieldMapKey} {scalar : Scalar}
    (known : entries.lookup key = some scalar) :
    ∃ value, map key = some value ∧ Shows access value scalar := by
  have visible := maps key
  rw [known] at visible
  exact visible

theorem Maps.missing {entries : Entries} {map : FieldMapKey → Option Value}
    (maps : Maps access entries map) {key : FieldMapKey}
    (unknown : entries.lookup key = none) : map key = none := by
  have absent := maps key
  rw [unknown] at absent
  exact absent

/-- A text is read as it was written. -/
theorem Maps.readsText {entries : Entries} {map : FieldMapKey → Option Value}
    (maps : Maps access entries map) {key : FieldMapKey} {text : String}
    (known : entries.lookup key = some (.text text)) :
    (map key).bind access.asText = some text := by
  obtain ⟨value, found, isText, _⟩ := maps.found known
  rw [found]
  exact isText

theorem Maps.readsOptional {entries : Entries}
    {map : FieldMapKey → Option Value} (maps : Maps access entries map)
    {key text : String} (default : String)
    (known : entries.lookup (.text key) = some (.text text)) :
    optionalText access map key default = .ok text := by
  obtain ⟨value, found, isText, _⟩ := maps.found known
  rw [optionalText, found]
  dsimp only
  rw [isText]
  rfl

theorem Maps.targetV1 {entries : Entries} {map : FieldMapKey → Option Value}
    (maps : Maps access entries map) {key text : String}
    (known : entries.lookup (.text key) = some (.text text)) :
    decodeTarget access false map key =
      if text = "" then .error .malformed else .ok text := by
  obtain ⟨value, found, isText, _⟩ := maps.found known
  rw [decodeTarget, found, okOr_some, ok_bind, if_neg (by decide), isText]
  by_cases empty : text = ""
  · rw [if_pos empty, empty]
    rfl
  · rw [if_neg empty, Option.filter_some, if_pos (decide_eq_true empty)]
    rfl

theorem Maps.targetV2 {entries : Entries} {map : FieldMapKey → Option Value}
    (maps : Maps access entries map) {key : String} {hash : List UInt8}
    (known : entries.lookup (.text key) = some (.binary hash)) (length : hash.length = 32) :
    decodeTarget access true map key = .ok (hexEncode hash) := by
  obtain ⟨value, found, isBinary, _⟩ := maps.found known
  rw [decodeTarget, found, okOr_some, ok_bind, if_pos rfl, isBinary,
    Option.filter_some, if_pos (decide_eq_true length)]
  rfl

/-! ## The standard fields -/

/-- An emoji that was sent is read, unless it is empty. -/
theorem nonempty_text (text : String) :
    okOr ((some text).filter fun text => text ≠ "")
        SuppressionReason.malformed =
      if text = "" then .error .malformed else .ok text := by
  by_cases empty : text = ""
  · rw [if_pos empty, empty]
    rfl
  · rw [if_neg empty, Option.filter_some, if_pos (decide_eq_true empty)]
    rfl

theorem decodeStandardReaction_written {value : Value} {hash : List UInt8}
    {emoji : String} {map : FieldMapKey → Option Value}
    (isMap : access.uniqueMap value = some map)
    (maps : Maps access (standardReactionEntries hash emoji) map) (length : hash.length = 32) :
    decodeStandardReaction access value =
      if emoji = "" then .error .malformed
      else .ok (.reaction (hexEncode hash) emoji "add") := by
  have first : (standardReactionEntries hash emoji).lookup
      (.integer reactionTo) = some (.binary hash) :=
    rfl
  have second : (standardReactionEntries hash emoji).lookup
      (.integer reactionContent) = some (.binary (asBytes emoji)) :=
    rfl
  obtain ⟨target, foundTarget, targetBytes, targetText⟩ := maps.found first
  obtain ⟨content, foundContent, contentBytes, contentText⟩ :=
    maps.found second
  have text : chatFieldText access content = some emoji := by
    rw [chatFieldText, contentText, contentBytes]
    exact fromUtf8_asBytes emoji
  rw [decodeStandardReaction, isMap, okOr_some, ok_bind, foundTarget,
    okOr_some, ok_bind, targetBytes, Option.some_or, okOr_some, ok_bind,
    standardHashHex_hash length, okOr_some, ok_bind, foundContent, okOr_some,
    ok_bind, text, nonempty_text]
  by_cases empty : emoji = ""
  · rw [if_pos empty, if_pos empty]
    rfl
  · rw [if_neg empty, if_neg empty]
    rfl

theorem decodeStandardReply_written (exact : ∀ bytes,
      access.asBinary (access.ofBinary bytes) = some bytes)
    {hash : List UInt8} (length : hash.length = 32) (preview : String) :
    decodeStandardReply access (access.ofBinary hash)
        (if preview = "" then none
          else some (access.ofBinary (asBytes preview))) =
      .ok (.reply (hexEncode hash) preview none) := by
  rw [decodeStandardReply, exact, okOr_some, ok_bind,
    standardHashHex_hash length, okOr_some, ok_bind]
  by_cases empty : preview = ""
  · rw [if_pos empty, empty]
    rfl
  · rw [if_neg empty, decodeQuote, exact, Option.bind_some,
      fromUtf8_asBytes]
    rfl

/-! ## The envelope -/

/-- A reaction of either version is read, unless its emoji is empty. -/
theorem decodeEnvelope_reaction (exact : ∀ bytes,
      access.asBinary (access.ofBinary bytes) = some bytes)
    {entries : Entries} (reads : Reads access entries) (v2 : Bool)
    {target : Except SuppressionReason String} {emoji action : String}
    (isTarget : ∀ map, Maps access entries map → decodeTarget access v2 map "target" = target)
    (isKind : entries.lookup (.text "kind") = some (.text "reaction"))
    (isEmoji : entries.lookup (.text "emoji") = some (.text emoji))
    (isAction : entries.lookup (.text "action") = some (.text action)) :
    decodeEnvelope access v2
        (some (access.ofBinary (access.writeMap entries))) =
      target >>= fun target =>
        if emoji = "" then .error .malformed
        else .ok (some (.reaction target emoji action)) := by
  obtain ⟨value, map, encoded, isMap, maps⟩ := reads
  rw [decodeEnvelope, Option.bind_some, exact, okOr_some, ok_bind, encoded,
    okOr_some, ok_bind, isMap, okOr_some, ok_bind, maps.readsText isKind,
    okOr_some, ok_bind, if_pos rfl, isTarget map maps, maps.readsText isEmoji,
    nonempty_text, maps.readsOptional "add" isAction]
  cases target with
  | error reason => rfl
  | ok target =>
      rw [ok_bind, ok_bind]
      by_cases empty : emoji = ""
      · rw [if_pos empty, if_pos empty]
        rfl
      · rw [if_neg empty, if_neg empty]
        rfl

/-- A reply of the first version. -/
theorem decodeEnvelope_replyV1 (exact : ∀ bytes,
      access.asBinary (access.ofBinary bytes) = some bytes)
    {target preview : String} {targetSender : Option String} (reads : Reads access
      (chatExtensionEntriesV1 (.reply target preview targetSender))) :
    decodeEnvelope access false
        (some (access.ofBinary (access.writeMap
          (chatExtensionEntriesV1 (.reply target preview targetSender))))) =
      if target ≠ "" ∧ targetSender ≠ some "" then
        .ok (some (.reply target preview targetSender))
      else .error .malformed := by
  obtain ⟨value, map, encoded, isMap, maps⟩ := reads
  have isKind : (chatExtensionEntriesV1
      (.reply target preview targetSender)).lookup (.text "kind") = some (.text "reply") :=
    rfl
  have isTarget : (chatExtensionEntriesV1
      (.reply target preview targetSender)).lookup (.text "target") = some (.text target) :=
    rfl
  have isPreview : (chatExtensionEntriesV1
      (.reply target preview targetSender)).lookup (.text "preview") = some (.text preview) :=
    rfl
  rw [decodeEnvelope, Option.bind_some, exact, okOr_some, ok_bind, encoded,
    okOr_some, ok_bind, isMap, okOr_some, ok_bind, maps.readsText isKind,
    okOr_some, ok_bind, if_neg (by decide), if_pos rfl,
    maps.targetV1 isTarget, maps.readsOptional "" isPreview]
  have sender : optionalTarget access false map "target_sender" =
      if targetSender = some "" then .error .malformed
      else .ok targetSender := by
    cases targetSender with
    | none =>
        have absent : (chatExtensionEntriesV1
            (.reply target preview none)).lookup (.text "target_sender") = none :=
          rfl
        rw [optionalTarget, maps.missing absent]
        rfl
    | some name =>
        have present : (chatExtensionEntriesV1
            (.reply target preview (some name))).lookup
              (.text "target_sender") = some (.text name) :=
          rfl
        obtain ⟨written, found, _⟩ := maps.found present
        rw [optionalTarget, found]
        dsimp only
        rw [maps.targetV1 present]
        by_cases empty : name = ""
        · rw [if_pos empty, if_pos (congrArg some empty)]
          rfl
        · rw [if_neg empty,
            if_neg fun same => empty (Option.some.inj same)]
          rfl
  rw [sender]
  by_cases noSender : targetSender = some ""
  · have incomplete : ¬(target ≠ "" ∧ targetSender ≠ some "") :=
      fun both => both.2 noSender
    rw [if_pos noSender, if_neg incomplete]
    rfl
  · rw [if_neg noSender, ok_bind]
    by_cases empty : target = ""
    · have incomplete : ¬(target ≠ "" ∧ targetSender ≠ some "") :=
        fun both => both.1 empty
      rw [if_pos empty, if_neg incomplete]
      rfl
    · rw [if_neg empty, if_pos ⟨empty, noSender⟩]
      rfl

/-! ## Whole messages -/

theorem setField_bytes (getField : UInt8 → Option Value) {id : UInt8}
    (bytes : List UInt8) (other : id ≠ fieldReaction) :
    setField access getField (id, bytes) =
      some (Function.update getField id (some (access.ofBinary bytes))) :=
  if_neg other

/-- The envelope after other fields. -/
theorem foldlM_envelope (getField : UInt8 → Option Value) (tag payload : List UInt8) :
    [(fieldCustomType, tag), (fieldCustomData, payload)].foldlM
        (setField access) getField =
      some (Function.update (Function.update getField fieldCustomType
        (some (access.ofBinary tag))) fieldCustomData
          (some (access.ofBinary payload))) := by
  rw [List.foldlM_cons, setField_bytes getField tag (by decide)]
  rfl

/-- The envelope changes no standard field. -/
theorem envelope_others (getField : UInt8 → Option Value)
    (tag payload : Value) {id : UInt8} (noTag : id ≠ fieldCustomType)
    (noData : id ≠ fieldCustomData) :
    Function.update (Function.update getField fieldCustomType (some tag))
        fieldCustomData (some payload) id = getField id := by
  rw [Function.update_of_ne noData, Function.update_of_ne noTag]

/-- What the receiver makes of a message. -/
def receives (content : List UInt8) (fields : List (UInt8 × List UInt8)) :
    Option (Except SuppressionReason (Option RatspeakChatExtension)) :=
  (createMessage access content fields).map (decodeRatspeakChatExtensionChecked access)

theorem receives_envelope (exact : ∀ bytes,
      access.asBinary (access.ofBinary bytes) = some bytes)
    (content payload : List UInt8) (v2 : Bool) :
    @receives _ access content
        [(fieldCustomType, if v2 then ratspeakChatCustomTypeV2
          else ratspeakChatCustomTypeV1), (fieldCustomData, payload)] =
      some (decodeEnvelope access v2 (some (access.ofBinary payload))) := by
  rw [receives, createMessage, foldlM_envelope, Option.map_some,
    Option.map_some, decodeRatspeakChatExtensionChecked]
  dsimp only
  rw [envelope_others _ _ _ (by decide) (by decide),
    envelope_others _ _ _ (by decide) (by decide)]
  dsimp only
  rw [Function.update_of_ne (by decide), Function.update_self,
    Option.bind_some, exact]
  dsimp only
  rw [decodeCustom]
  dsimp only
  rw [Function.update_self]
  cases v2 with
  | true => rw [if_pos rfl, if_neg (by decide +kernel), if_pos rfl]
  | false =>
      have plain : (if false = true then ratspeakChatCustomTypeV2
          else ratspeakChatCustomTypeV1) = ratspeakChatCustomTypeV1 :=
        rfl
      rw [plain, if_neg (by decide +kernel), if_neg (by decide +kernel),
        if_pos rfl]

theorem receives_reaction {payload : List UInt8} {value : Value}
    (encoded : access.fromEncoded payload = some value) (content tag envelope : List UInt8) :
    @receives _ access content
        [(fieldReaction, payload), (fieldCustomType, tag), (fieldCustomData, envelope)] =
      some ((decodeStandardReaction access value).map some) := by
  have first : setField access (fun _ => none) (fieldReaction, payload) =
      some (Function.update (fun _ => none) fieldReaction (some value)) := by
    rw [setField, if_pos rfl, encoded]
    rfl
  rw [receives, createMessage, List.foldlM_cons, first]
  dsimp only [bind, Option.bind]
  rw [foldlM_envelope, Option.map_some, Option.map_some, decodeRatspeakChatExtensionChecked]
  dsimp only
  rw [envelope_others _ _ _ (by decide) (by decide), Function.update_self]

theorem receives_reply (content hash tag envelope : List UInt8) (preview : String) :
    @receives _ access content
        ((fieldReplyTo, hash) ::
          (if preview = "" then []
            else [(fieldReplyQuote, asBytes preview)]) ++
          [(fieldCustomType, tag), (fieldCustomData, envelope)]) =
      some ((decodeStandardReply access (access.ofBinary hash)
        (if preview = "" then none
          else some (access.ofBinary (asBytes preview)))).map some) := by
  rw [receives, createMessage, List.cons_append, List.foldlM_cons,
    setField_bytes _ hash (by decide)]
  dsimp only [bind, Option.bind]
  by_cases empty : preview = ""
  · rw [if_pos empty, if_pos empty, List.nil_append, foldlM_envelope,
      Option.map_some, Option.map_some, decodeRatspeakChatExtensionChecked]
    dsimp only
    rw [envelope_others _ _ _ (by decide) (by decide),
      envelope_others _ _ _ (by decide) (by decide),
      envelope_others _ _ _ (by decide) (by decide),
      Function.update_of_ne (by decide), Function.update_self,
      Function.update_of_ne (by decide)]
  · rw [if_neg empty, if_neg empty, List.cons_append, List.nil_append,
      List.foldlM_cons, setField_bytes _ (asBytes preview) (by decide)]
    dsimp only [bind, Option.bind]
    rw [foldlM_envelope, Option.map_some, Option.map_some, decodeRatspeakChatExtensionChecked]
    dsimp only
    rw [envelope_others _ _ _ (by decide) (by decide),
      envelope_others _ _ _ (by decide) (by decide),
      envelope_others _ _ _ (by decide) (by decide),
      Function.update_of_ne (by decide), Function.update_of_ne (by decide),
      Function.update_of_ne (by decide), Function.update_self,
      Function.update_self]

/-! ## Every extension -/

theorem fields_v2 {extension : RatspeakChatExtension} {entries : Entries}
    (isV2 : chatExtensionEntriesV2 extension = some entries) :
    ratspeakChatCustomFields access extension =
      some (standardChatFields access extension ++
        [(fieldCustomType, ratspeakChatCustomTypeV2),
          (fieldCustomData, access.writeMap entries)]) := by
  rw [ratspeakChatCustomFields, encodeChatExtensionDataV2, isV2]
  simp [emitLegacyReplyReactionEnvelope]

theorem fields_v1 {extension : RatspeakChatExtension}
    (noV2 : chatExtensionEntriesV2 extension = none) :
    ratspeakChatCustomFields access extension =
      some (standardChatFields access extension ++
        [(fieldCustomType, ratspeakChatCustomTypeV1),
          (fieldCustomData,
            access.writeMap (chatExtensionEntriesV1 extension))]) := by
  rw [ratspeakChatCustomFields, encodeChatExtensionDataV2, noV2]
  simp [emitLegacyReplyReactionEnvelope, encodeChatExtensionDataV1]

/-- There is always an envelope. -/
theorem fields_envelope (extension : RatspeakChatExtension) :
    ∃ tag payload, ratspeakChatCustomFields access extension =
      some (standardChatFields access extension ++
        [(fieldCustomType, tag), (fieldCustomData, payload)]) := by
  cases isV2 : chatExtensionEntriesV2 extension with
  | none => exact ⟨_, _, fields_v1 isV2⟩
  | some entries => exact ⟨_, _, fields_v2 isV2⟩

/-- What an extension comes back as. -/
def expected (extension : RatspeakChatExtension) :
    Except SuppressionReason (Option RatspeakChatExtension) :=
  if Complete extension then .ok (some (normalised extension))
  else .error .malformed

/-- The receiver reads what is expected. -/
def ComesBack (access : Accessors Value) (content : List UInt8)
    (extension : RatspeakChatExtension) : Prop :=
  ∃ fields, ratspeakChatCustomFields access extension = some fields ∧
    @receives _ access content fields = some (expected extension)

theorem ne_empty_of_hash {id : String} {hash : List UInt8}
    (isHash : idAs32Bytes id = some hash) : id ≠ "" := by
  intro empty
  rw [empty] at isHash
  have decoded := (Option.filter_eq_some_iff.mp isHash).1
  have length := length_of_idAs32Bytes isHash
  cases decoded
  cases length

/-- A reaction to a hash. -/
theorem reaction_hash {target emoji action : String} {hash : List UInt8}
    (exact : Exact access (.reaction target emoji action))
    (isHash : idAs32Bytes target = some hash) (content : List UInt8) :
    ComesBack access content (.reaction target emoji action) := by
  have length := length_of_idAs32Bytes isHash
  have outcome : expected (.reaction target emoji action) =
      if emoji = "" then .error .malformed
      else .ok (some (.reaction (hexEncode hash) emoji action)) := by
    have nonempty := ne_empty_of_hash isHash
    by_cases empty : emoji = ""
    · simp [expected, Complete, empty]
    · simp [expected, Complete, normalised, normalId, empty, nonempty, isHash]
  have isV2 : chatExtensionEntriesV2 (.reaction target emoji action) =
      some [chatMapEntry "kind" (.text "reaction"),
        chatMapEntry "target" (.binary hash),
        chatMapEntry "emoji" (.text emoji),
        chatMapEntry "action" (.text action)] := by
    simp [chatExtensionEntriesV2, isHash]
  refine ⟨_, fields_v2 isV2, ?_⟩
  rw [outcome]
  by_cases added : action = "add"
  · have standard : standardChatFields access (.reaction target emoji action) =
        [(fieldReaction,
          access.writeMap (standardReactionEntries hash emoji))] := by
      rw [standardChatFields, isHash, Option.filter_some, if_pos (decide_eq_true added)]
      rfl
    obtain ⟨value, map, encoded, isMap, maps⟩ :=
      exact.standard target emoji action hash rfl isHash
    rw [standard, List.cons_append, List.nil_append,
      receives_reaction encoded, decodeStandardReaction_written isMap maps length, added]
    by_cases empty : emoji = ""
    · rw [if_pos empty, if_pos empty]
      rfl
    · rw [if_neg empty, if_neg empty]
      rfl
  · have standard : standardChatFields access (.reaction target emoji action) =
        [] := by
      simp [standardChatFields, isHash, added]
    have arrives := receives_envelope exact.binary content
      (access.writeMap [chatMapEntry "kind" (.text "reaction"),
        chatMapEntry "target" (.binary hash),
        chatMapEntry "emoji" (.text emoji),
        chatMapEntry "action" (.text action)]) true
    rw [if_pos rfl] at arrives
    rw [standard, List.nil_append, arrives,
      decodeEnvelope_reaction exact.binary (exact.v2 _ isV2) true
        (fun map maps => maps.targetV2 rfl length) rfl rfl rfl]
    rfl

/-- A reaction to an identifier that is no hash. -/
theorem reaction_text {target emoji action : String}
    (exact : Exact access (.reaction target emoji action))
    (noHash : idAs32Bytes target = none) (content : List UInt8) :
    ComesBack access content (.reaction target emoji action) := by
  have noV2 : chatExtensionEntriesV2 (.reaction target emoji action) =
      none := by
    simp [chatExtensionEntriesV2, noHash]
  have standard : standardChatFields access (.reaction target emoji action) =
      [] := by
    simp [standardChatFields, noHash]
  refine ⟨_, fields_v1 noV2, ?_⟩
  have arrives := receives_envelope exact.binary content
    (access.writeMap (chatExtensionEntriesV1 (.reaction target emoji action))) false
  rw [if_neg (by decide)] at arrives
  rw [standard, List.nil_append, arrives,
    decodeEnvelope_reaction exact.binary exact.v1 false
      (fun map maps => maps.targetV1 rfl) rfl rfl rfl]
  by_cases noTarget : target = ""
  · rw [if_pos noTarget]
    simp [expected, Complete, noTarget]
  · rw [if_neg noTarget, ok_bind]
    by_cases empty : emoji = ""
    · simp [expected, Complete, empty]
    · simp [expected, Complete, normalised, normalId, empty, noTarget, noHash]

/-- A reply to a hash. -/
theorem reply_hash {target preview : String} {targetSender : Option String}
    {hash : List UInt8} (exact : Exact access (.reply target preview targetSender))
    (isHash : idAs32Bytes target = some hash) (content : List UInt8) :
    ComesBack access content (.reply target preview targetSender) := by
  have length := length_of_idAs32Bytes isHash
  obtain ⟨tag, payload, written⟩ :=
    @fields_envelope _ access (.reply target preview targetSender)
  have standard : standardChatFields access
      (.reply target preview targetSender) = (fieldReplyTo, hash) ::
        if preview = "" then [] else [(fieldReplyQuote, asBytes preview)] := by
    simp [standardChatFields, isHash]
  refine ⟨_, written, ?_⟩
  rw [standard, receives_reply, decodeStandardReply_written exact.binary length]
  have nonempty := ne_empty_of_hash isHash
  simp [expected, Complete, normalised, normalId, isHash, nonempty, Except.map]

/-- A reply to an identifier that is no hash. -/
theorem reply_text {target preview : String} {targetSender : Option String}
    (exact : Exact access (.reply target preview targetSender))
    (noHash : idAs32Bytes target = none) (content : List UInt8) :
    ComesBack access content (.reply target preview targetSender) := by
  have noV2 : chatExtensionEntriesV2 (.reply target preview targetSender) =
      none := by
    simp [chatExtensionEntriesV2, noHash]
  have standard : standardChatFields access
      (.reply target preview targetSender) = [] := by
    simp [standardChatFields, noHash]
  refine ⟨_, fields_v1 noV2, ?_⟩
  have arrives := receives_envelope exact.binary content
    (access.writeMap (chatExtensionEntriesV1 (.reply target preview targetSender))) false
  rw [if_neg (by decide)] at arrives
  rw [standard, List.nil_append, arrives, decodeEnvelope_replyV1 exact.binary exact.v1]
  simp [expected, Complete, normalised, normalId, noHash]

end

/-- A reaction or a reply comes back as the same one in its normal form, and
where something in it is empty it is rejected. -/
theorem chatExtension_roundTrip {Value : Type} (access : Accessors Value)
    (extension : RatspeakChatExtension) (exact : Exact access extension)
    (content : List UInt8) :
    ∃ fields message,
      ratspeakChatCustomFields access extension = some fields ∧
      createMessage access content fields = some message ∧
      decodeRatspeakChatExtensionChecked access message =
        (if Complete extension then .ok (some (normalised extension))
        else .error .malformed) ∧
      SameExtension extension (normalised extension) := by
  have comesBack : ComesBack access content extension := by
    cases extension with
    | reaction target emoji action =>
        cases isHash : idAs32Bytes target with
        | none => exact reaction_text exact isHash content
        | some hash => exact reaction_hash exact isHash content
    | reply target preview targetSender =>
        cases isHash : idAs32Bytes target with
        | none => exact reply_text exact isHash content
        | some hash => exact reply_hash exact isHash content
  obtain ⟨fields, written, received⟩ := comesBack
  obtain ⟨message, created, decoded⟩ := Option.map_eq_some_iff.mp received
  exact ⟨fields, message, written, created, decoded, sameExtension_normalised extension⟩

/-! ## The format, for short maps -/

inductive Packed where
  | scalar (value : Scalar)
  | map (entries : Entries)
  deriving DecidableEq

/-- A text of up to 255 bytes, or as many bytes. -/
def packScalar : Scalar → List UInt8
  | .text text =>
      let bytes := asBytes text
      let length := UInt8.ofNat bytes.length
      if bytes.length < 32 then (0xA0 + length) :: bytes
      else 0xD9 :: length :: bytes
  | .binary bytes => 0xC4 :: UInt8.ofNat bytes.length :: bytes

def packKey : FieldMapKey → List UInt8
  | .integer number => [UInt8.ofNat number.toNat]
  | .text key => packScalar (.text key)

/-- A map of up to 15 entries. -/
def packMap (entries : Entries) : List UInt8 :=
  (0x80 + UInt8.ofNat entries.length) ::
    entries.flatMap fun entry => packKey entry.1 ++ packScalar entry.2

def unpackText (length : Nat) (bytes : List UInt8) :
    Option (String × List UInt8) :=
  if bytes.length < length then none
  else (fromUtf8 (bytes.take length)).map fun text =>
    (text, bytes.drop length)

def unpackScalar : List UInt8 → Option (Scalar × List UInt8)
  | 0xC4 :: length :: bytes =>
      if bytes.length < length.toNat then none
      else some (.binary (bytes.take length.toNat), bytes.drop length.toNat)
  | 0xD9 :: length :: bytes =>
      (unpackText length.toNat bytes).map fun read =>
        (.text read.1, read.2)
  | head :: bytes =>
      if 0xA0 ≤ head ∧ head < 0xC0 then
        (unpackText (head.toNat - 0xA0) bytes).map fun read =>
          (.text read.1, read.2)
      else none
  | [] => none

def unpackKey : List UInt8 → Option (FieldMapKey × List UInt8)
  | [] => none
  | head :: bytes =>
      if head < 0x80 then some (.integer head.toNat, bytes)
      else
        match unpackScalar (head :: bytes) with
        | some (.text key, rest) => some (.text key, rest)
        | _ => none

def unpackEntries : Nat → List UInt8 → Option Entries
  | 0, bytes => if bytes = [] then some [] else none
  | count + 1, bytes => do
      let key ← unpackKey bytes
      let value ← unpackScalar key.2
      let entries ← unpackEntries count value.2
      return (key.1, value.1) :: entries

def unpack : List UInt8 → Option Packed
  | [] => none
  | head :: bytes =>
      if 0x80 ≤ head ∧ head < 0x90 then
        (unpackEntries (head.toNat - 0x80) bytes).map .map
      else
        match unpackScalar (head :: bytes) with
        | some (value, []) => some (.scalar value)
        | _ => none

/-- The accessors of short values. -/
def shortValues : Accessors Packed where
  writeMap := packMap
  ofBinary := fun bytes => .scalar (.binary bytes)
  fromEncoded := unpack
  asText
    | .scalar (.text text) => some text
    | _ => none
  asBinary
    | .scalar (.binary bytes) => some bytes
    | _ => none
  uniqueMap
    | .map entries =>
        if (entries.map Prod.fst).Nodup then
          some fun key => (entries.lookup key).map .scalar
        else none
    | _ => none
  jsonMembers := fun _ => none

private theorem reads_short {entries : Entries}
    (unpacked : unpack (packMap entries) = some (.map entries))
    (keys : (entries.map Prod.fst).Nodup) : Reads shortValues entries := by
  refine ⟨.map entries, fun key => (entries.lookup key).map .scalar, unpacked,
    if_pos keys, fun key => ?_⟩
  cases found : entries.lookup key with
  | none =>
      dsimp only
      rw [found]
      rfl
  | some scalar =>
      refine ⟨.scalar scalar, by dsimp only; rw [found]; rfl, ?_⟩
      cases scalar with
      | text text => exact ⟨rfl, rfl⟩
      | binary bytes => exact ⟨rfl, rfl⟩

/-- A hash in capitals. -/
def capitals : String :=
  "00112233445566778899AABBCCDDEEFF00112233445566778899AABBCCDDEEFF"

private def capitalsHash : List UInt8 :=
  [0x00, 0x11, 0x22, 0x33, 0x44, 0x55, 0x66, 0x77, 0x88, 0x99, 0xAA, 0xBB,
    0xCC, 0xDD, 0xEE, 0xFF, 0x00, 0x11, 0x22, 0x33, 0x44, 0x55, 0x66, 0x77,
    0x88, 0x99, 0xAA, 0xBB, 0xCC, 0xDD, 0xEE, 0xFF]

private theorem capitals_exact :
    Exact shortValues (.reaction capitals "+1" "remove") where
  binary := fun _ => rfl
  v1 := reads_short (by decide +kernel) (by decide)
  v2 := by
    intro entries isV2
    have known : chatExtensionEntriesV2 (.reaction capitals "+1" "remove") =
        some [chatMapEntry "kind" (.text "reaction"),
          chatMapEntry "target" (.binary capitalsHash),
          chatMapEntry "emoji" (.text "+1"),
          chatMapEntry "action" (.text "remove")] := by
      decide +kernel
    rw [known] at isV2
    cases isV2
    exact reads_short (by decide +kernel) (by decide)
  standard := by
    intro target emoji action hash same isHash
    cases same
    have known : idAs32Bytes capitals = some capitalsHash := by
      decide +kernel
    rw [known] at isHash
    cases isHash
    exact reads_short (by decide +kernel) (by decide)

/-- A removal comes back as a removal. -/
theorem chatExtension_roundTrip_removal :
    ∃ fields message,
      ratspeakChatCustomFields shortValues (.reaction capitals "+1" "remove") = some fields ∧
      createMessage shortValues [] fields = some message ∧
      decodeRatspeakChatExtensionChecked shortValues message =
        .ok (some (.reaction
          "00112233445566778899aabbccddeeff00112233445566778899aabbccddeeff"
          "+1" "remove")) := by
  obtain ⟨fields, message, written, created, decoded, _⟩ :=
    chatExtension_roundTrip shortValues (.reaction capitals "+1" "remove") capitals_exact []
  refine ⟨fields, message, written, created, ?_⟩
  rw [decoded]
  decide +kernel

private theorem noEmoji_exact :
    Exact shortValues (.reaction "old-id" "" "add") where
  binary := fun _ => rfl
  v1 := reads_short (by decide +kernel) (by decide)
  v2 := by
    intro entries never
    have none : chatExtensionEntriesV2 (.reaction "old-id" "" "add") =
        none := by
      decide +kernel
    rw [none] at never
    cases never
  standard := by
    intro target emoji action hash same never
    cases same
    have none : idAs32Bytes "old-id" = none := by
      decide +kernel
    rw [none] at never
    cases never

/-- A reaction without an emoji is sent, and is rejected by its receiver. -/
theorem emptyEmoji_rejected :
    Exact shortValues (.reaction "old-id" "" "add") ∧
      ∃ fields message,
        ratspeakChatCustomFields shortValues (.reaction "old-id" "" "add") = some fields ∧
        createMessage shortValues [] fields = some message ∧
        decodeRatspeakChatExtensionChecked shortValues message =
          .error .malformed := by
  refine ⟨noEmoji_exact, _, _, rfl, rfl, ?_⟩
  decide +kernel

end Ratspeak.Chat
