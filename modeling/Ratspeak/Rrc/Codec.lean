import Ratspeak.Rrc.Cbor

/-!
# Envelopes and bodies are read as they were written

Every envelope is read again from its bytes, and what was read once is read
again from the bytes that it is written as.  A reader takes the first entry of
each key that it knows and nothing else, so neither the order of the entries
nor an unknown one makes a difference.
-/

namespace Ratspeak

open Library

/-! ## Values by integer keys -/

/-- The value of a key, the first if there are several. -/
def valueOf (entries : List (Nat × Value)) (key : Nat) : Option Value :=
  entries.findSome? fun entry =>
    if entry.1 = key then some entry.2 else none

@[simp]
theorem valueOf_nil (key : Nat) : valueOf [] key = none :=
  rfl

@[simp]
theorem valueOf_cons (entry : Nat × Value) (rest : List (Nat × Value)) (key : Nat) :
    valueOf (entry :: rest) key =
      if entry.1 = key then some entry.2 else valueOf rest key := by
  rw [valueOf, List.findSome?_cons]
  by_cases found : entry.1 = key
  · rw [if_pos found, if_pos found]
  · rw [if_neg found, if_neg found]
    rfl

@[simp]
theorem valueOf_append (first second : List (Nat × Value)) (key : Nat) :
    valueOf (first ++ second) key = (valueOf first key).or (valueOf second key) :=
  List.findSome?_append

/-- A field that may be absent. -/
@[simp]
theorem valueOf_optional {Content : Type} (content : Option Content)
    (own : Nat) (toValue : Content → Value) (key : Nat) :
    valueOf (content.map fun some_content =>
        (own, toValue some_content)).toList key =
      if own = key then content.map toValue else none := by
  cases content with
  | none =>
      rw [Option.map_none, Option.map_none, ite_self]
      rfl
  | some content =>
      rw [Option.map_some, Option.toList_some, valueOf_cons, valueOf_nil, Option.map_some]

@[simp]
theorem valueOf_optional_self (content : Option Value) (own key : Nat) :
    valueOf (content.map (Prod.mk own)).toList key =
      if own = key then content else none := by
  have optional := valueOf_optional content own id key
  rw [Option.map_id] at optional
  exact optional

theorem asUnsigned_unsigned {value : Nat} (fits : value < 2 ^ 64) :
    (Value.unsigned value).asUnsigned = some value := by
  have inRange : 0 ≤ (value : Int) ∧ (value : Int) < 2 ^ 64 :=
    ⟨Int.natCast_nonneg _, by exact_mod_cast fits⟩
  unfold Value.unsigned Value.asUnsigned
  dsimp only
  rw [if_pos inRange]
  rfl

theorem lt_of_asUnsigned {value : Value} {number : Nat}
    (isNumber : value.asUnsigned = some number) : number < 2 ^ 64 := by
  unfold Value.asUnsigned at isNumber
  split at isNumber
  · split at isNumber
    · rename_i inRange
      cases isNumber
      exact (Int.toNat_lt inRange.1).mpr (by exact_mod_cast inRange.2)
    · cases isNumber
  · cases isNumber

theorem mapGet_cons (candidate value : Value) (rest : List (Value × Value)) (key : Nat) :
    mapGet ((candidate, value) :: rest) key =
      if candidate.asUnsigned = some key then some value
      else mapGet rest key := by
  rw [mapGet, List.findSome?_cons]
  by_cases found : candidate.asUnsigned = some key
  · rw [if_pos found, if_pos found]
  · rw [if_neg found, if_neg found]
    rfl

private theorem ite_unsigned {Result : Type} {value : Nat}
    (fits : value < 2 ^ 64) (key : Nat) (first second : Result) :
    (if (Value.unsigned value).asUnsigned = some key then first
      else second) = if value = key then first else second := by
  have isValue := asUnsigned_unsigned fits
  by_cases found : value = key
  · rw [if_pos found, if_pos (isValue.trans (congrArg some found))]
  · rw [if_neg found, if_neg fun same =>
      found (Option.some.inj (isValue.symm.trans same))]

/-- The value of a key in a map with integer keys. -/
theorem mapGet_integerMap {entries : List (Nat × Value)}
    (fit : ∀ entry ∈ entries, entry.1 < 2 ^ 64) (key : Nat) :
    mapGet (entries.map fun entry => (Value.unsigned entry.1, entry.2))
      key = valueOf entries key := by
  induction entries with
  | nil => rfl
  | cons entry rest ih =>
      have later := ih fun other member =>
        fit other (List.mem_cons_of_mem entry member)
      rw [List.map_cons, mapGet_cons, valueOf_cons, later,
        ite_unsigned (fit entry List.mem_cons_self)]

/-- The keys of optional fields. -/
theorem keys_optional {Content : Type} (content : Option Content)
    (own : Nat) (toValue : Content → Value) :
    ((content.map fun some_content =>
      (own, toValue some_content)).toList.map Prod.fst).Sublist [own] := by
  cases content with
  | none => exact List.nil_sublist _
  | some content => exact List.Sublist.refl _

namespace Wire

/-! ## The fields of an envelope -/

section Fields

variable (envelope : Envelope)

/-- The keys are in order. -/
theorem keys_fields :
    ((fields envelope).map Prod.fst).Sublist (List.range 9) := by
  rw [fields, List.map_append, List.map_append, List.map_append, List.map_append]
  exact ((((List.Sublist.refl _).append
    (keys_optional envelope.room kRoom _)).append
    (keys_optional envelope.body kBody _)).append
    (keys_optional envelope.nickname kNickname _)).append
    (keys_optional envelope.destination kDestination _)

theorem key_lt_of_mem_fields {field : Nat × Value}
    (member : field ∈ fields envelope) : field.1 < 9 :=
  List.mem_range.mp ((keys_fields envelope).subset (List.mem_map_of_mem member))

/-- Sorting by key leaves them as they are. -/
theorem mergeSort_fields :
    (fields envelope).mergeSort (fun first second =>
      first.1 ≤ second.1) = fields envelope := by
  have ordered : ((fields envelope).map Prod.fst).Pairwise (· ≤ ·) :=
    List.Pairwise.sublist (keys_fields envelope) (by decide)
  apply List.mergeSort_of_pairwise
  exact (List.pairwise_map.mp ordered).imp fun inOrder =>
    decide_eq_true inOrder

/-- What a reader finds under each key. -/
theorem mapGet_fields (key : Nat) :
    mapGet ((fields envelope).map fun field =>
      (Value.unsigned field.1, field.2)) key =
      valueOf (fields envelope) key :=
  mapGet_integerMap (fun _ member =>
    Nat.lt_trans (key_lt_of_mem_fields envelope member) (by decide)) key

@[simp]
theorem version_fields : valueOf (fields envelope) kVersion =
    some (.unsigned envelope.version.toNat) := by
  simp [fields]

@[simp]
theorem type_fields : valueOf (fields envelope) kType =
    some (.unsigned envelope.messageType.wire) := by
  simp [fields, kVersion, kType]

@[simp]
theorem id_fields : valueOf (fields envelope) kId =
    some (.bytes envelope.messageId.val) := by
  simp [fields, kVersion, kType, kId]

@[simp]
theorem timestamp_fields : valueOf (fields envelope) kTimestamp =
    some (.unsigned envelope.timestampMs.toNat) := by
  simp [fields, kVersion, kType, kId, kTimestamp]

@[simp]
theorem source_fields : valueOf (fields envelope) kSource =
    some (.bytes envelope.source.val) := by
  simp [fields, kVersion, kType, kId, kTimestamp, kSource]

@[simp]
theorem room_fields : valueOf (fields envelope) kRoom =
    envelope.room.map Value.text := by
  simp [fields, kVersion, kType, kId, kTimestamp, kSource, kRoom, kBody,
    kNickname, kDestination]

@[simp]
theorem body_fields : valueOf (fields envelope) kBody =
    envelope.body := by
  simp [fields, kVersion, kType, kId, kTimestamp, kSource, kRoom, kBody,
    kNickname, kDestination]

@[simp]
theorem nickname_fields : valueOf (fields envelope) kNickname =
    envelope.nickname.map Value.text := by
  simp [fields, kVersion, kType, kId, kTimestamp, kSource, kRoom, kBody,
    kNickname, kDestination]

@[simp]
theorem destination_fields : valueOf (fields envelope) kDestination =
    envelope.destination.map fun destination =>
      Value.bytes destination.val := by
  simp [fields, kVersion, kType, kId, kTimestamp, kSource, kRoom, kBody,
    kNickname, kDestination]

end Fields

theorem requiredUnsigned_of_mapGet {fields : List (Value × Value)}
    {key number : Nat} {value : Value} (found : mapGet fields key = some value)
    (isNumber : value.asUnsigned = some number) :
    requiredUnsigned fields key = .ok number := by
  rw [requiredUnsigned, found]
  dsimp only
  rw [isNumber]

theorem fixedBytes_of_mapGet {length : Nat}
    {fields : List (Value × Value)} {key : Nat} {content : Bytes length}
    (found : mapGet fields key = some (.bytes content.val)) :
    fixedBytes length fields key = .ok content := by
  rw [fixedBytes, found]
  dsimp only
  rw [Bytes.ofList_val]

theorem optionalText_of_mapGet {fields : List (Value × Value)} {key : Nat}
    {text : Option String} (found : mapGet fields key = text.map Value.text) :
    optionalText fields key = .ok text := by
  rw [optionalText, found]
  cases text <;> rfl

theorem optionalBytes_of_mapGet {length : Nat} {fields : List (Value × Value)} {key : Nat}
    {content : Option (Bytes length)} (found : mapGet fields key =
      content.map fun bytes => Value.bytes bytes.val) :
    optionalBytes length fields key = .ok content := by
  cases content with
  | none =>
      rw [optionalBytes, found]
      rfl
  | some bytes =>
      rw [optionalBytes, found]
      dsimp only [Option.map_some]
      rw [fixedBytes_of_mapGet found]
      rfl

/-- All keys are unsigned. -/
theorem keyed_fields (envelope : Envelope) :
    ¬ ((fields envelope).map fun field =>
      (Value.unsigned field.1, field.2)).any
        (fun field => field.1.asUnsigned.isNone) = true := by
  rw [List.any_eq_true]
  rintro ⟨⟨candidate, value⟩, member, isNone⟩
  obtain ⟨own, isOwn, isField⟩ := List.mem_map.mp member
  have small := key_lt_of_mem_fields envelope isOwn
  have isKey := @asUnsigned_unsigned own.1 (Nat.lt_trans small (by decide))
  have isCandidate : Value.unsigned own.1 = candidate :=
    congrArg Prod.fst isField
  rw [isCandidate] at isKey
  dsimp only at isNone
  rw [isKey] at isNone
  cases isNone

/-- The fields of an envelope are read as the envelope. -/
theorem decodeFields_fields {envelope : Envelope} (version : envelope.version = 1)
    (canonical : envelope.messageType.Canonical) :
    decodeFields ((fields envelope).map fun field =>
      (Value.unsigned field.1, field.2)) = .ok envelope := by
  have keyed := keyed_fields envelope
  have found := mapGet_fields envelope
  have isVersion := requiredUnsigned_of_mapGet
    ((found kVersion).trans (version_fields envelope))
    (asUnsigned_unsigned envelope.version.toNat_lt)
  have isType := requiredUnsigned_of_mapGet
    ((found kType).trans (type_fields envelope))
    (asUnsigned_unsigned canonical.wire_lt)
  have isId := fixedBytes_of_mapGet ((found kId).trans (id_fields envelope))
  have isTimestamp := requiredUnsigned_of_mapGet
    ((found kTimestamp).trans (timestamp_fields envelope))
    (asUnsigned_unsigned envelope.timestampMs.toNat_lt)
  have isSource := fixedBytes_of_mapGet ((found kSource).trans (source_fields envelope))
  have isRoom := optionalText_of_mapGet ((found kRoom).trans (room_fields envelope))
  have isBody := (found kBody).trans (body_fields envelope)
  have isNickname := optionalText_of_mapGet ((found kNickname).trans (nickname_fields envelope))
  have isDestination := optionalBytes_of_mapGet
    ((found kDestination).trans (destination_fields envelope))
  have supported : ¬ envelope.version.toNat ≠ rrcVersion := by
    rw [version]
    exact not_not.mpr rfl
  unfold decodeFields
  rw [if_neg keyed, isVersion, isType, isId, isTimestamp, isSource, isRoom,
    isBody, isNickname, isDestination]
  simp only [ofField, bind, Except.bind, pure, Except.pure,
    if_neg supported, UInt64.ofNat_toNat, canonical.fromWire_wire]

/-! ## Bytes -/

variable {cbor : Cbor}

/-- An envelope is read as it was written, by any codec that is right about
its own value: one of limited depth reads the envelopes within its limit. -/
theorem decode_encode {envelope : Envelope}
    (reads : cbor.Reads (Value.integerMap (fields envelope)))
    (version : envelope.version = 1) (canonical : envelope.messageType.Canonical) :
    ∃ bytes, encode cbor envelope = .ok bytes ∧
      decode cbor bytes = .ok envelope := by
  obtain ⟨bytes, isWritten, isRead⟩ := reads
  refine ⟨bytes, ?_, ?_⟩
  · rw [encode, mergeSort_fields, isWritten]
    rfl
  · have position : ¬ bytes.length ≠ bytes.length :=
      not_not.mpr rfl
    rw [decode, isRead]
    simp only [invalidCbor, bind, Except.bind, if_neg position]
    exact decodeFields_fields version canonical

theorem ok_of_ofField {Result : Type} {field : Except ProtocolError Result} {result : Result}
    (succeeded : ofField field = .ok result) : field = .ok result := by
  cases field with
  | error failure => cases succeeded
  | ok other =>
      cases succeeded
      rfl

theorem lt_of_requiredUnsigned {fields : List (Value × Value)}
    {key number : Nat} (read : requiredUnsigned fields key = .ok number) :
    number < 2 ^ 64 := by
  rw [requiredUnsigned] at read
  split at read
  · cases read
  rename_i value _
  cases isNumber : value.asUnsigned with
  | none =>
      rw [isNumber] at read
      cases read
  | some other =>
      rw [isNumber] at read
      cases read
      exact lt_of_asUnsigned isNumber

/-- What is read has the version and a type that a number is read as. -/
theorem decodeFields_ok {entries : List (Value × Value)}
    {envelope : Envelope} (decoded : decodeFields entries = .ok envelope) :
    envelope.version = 1 ∧ envelope.messageType.Canonical := by
  unfold decodeFields at decoded
  split at decoded
  · cases decoded
  rw [except_bind_ok] at decoded
  obtain ⟨version, isVersion, decoded⟩ := decoded
  split at decoded
  · cases decoded
  rename_i supported
  rw [except_bind_ok] at decoded
  obtain ⟨code, isCode, decoded⟩ := decoded
  iterate 6
    rw [except_bind_ok] at decoded
    obtain ⟨_, -, decoded⟩ := decoded
  cases decoded
  refine ⟨?_, code, lt_of_requiredUnsigned (ok_of_ofField isCode), rfl⟩
  rw [not_not.mp supported]
  rfl

/-! ## What a reader takes of the fields -/

/-- All keys are unsigned. -/
def Keyed (fields : List (Value × Value)) : Prop :=
  ∀ field ∈ fields, field.1.asUnsigned ≠ none

theorem Keyed.not_any {fields : List (Value × Value)} (keyed : Keyed fields) :
    ¬ fields.any (fun field => field.1.asUnsigned.isNone) = true := by
  rw [List.any_eq_true]
  rintro ⟨field, member, isNone⟩
  exact keyed field member (Option.isNone_iff_eq_none.mp isNone)

/-- Only the first entry of each known key is read. -/
theorem decodeFields_congr {first second : List (Value × Value)}
    (firstKeyed : Keyed first) (secondKeyed : Keyed second)
    (same : ∀ key ≤ kDestination, mapGet first key = mapGet second key) :
    decodeFields first = decodeFields second := by
  unfold decodeFields requiredUnsigned fixedBytes optionalText optionalBytes fixedBytes
  rw [if_neg firstKeyed.not_any, if_neg secondKeyed.not_any,
    same kVersion (by decide), same kType (by decide),
    same kId (by decide), same kTimestamp (by decide),
    same kSource (by decide), same kRoom (by decide),
    same kBody (by decide), same kNickname (by decide),
    same kDestination (by decide)]

/-- A key stands at most once. -/
def AtMostOnce (fields : List (Value × Value)) (key : Nat) : Prop :=
  (fields.filter fun field => field.1.asUnsigned = some key).length ≤ 1

theorem mapGet_eq_filter (fields : List (Value × Value)) (key : Nat) :
    mapGet fields key =
      ((fields.filter fun field =>
        field.1.asUnsigned = some key).map Prod.snd).head? := by
  induction fields with
  | nil => rfl
  | cons field rest ih =>
      obtain ⟨candidate, value⟩ := field
      rw [mapGet_cons, List.filter_cons]
      by_cases found : candidate.asUnsigned = some key
      · rw [if_pos found, if_pos (decide_eq_true found)]
        rfl
      · rw [if_neg found, if_neg (by rw [decide_eq_true_eq]; exact found),
          ih]

/-- The order makes no difference where each known key stands at most
once. -/
theorem mapGet_perm {first second : List (Value × Value)} {key : Nat}
    (reordered : first.Perm second) (once : AtMostOnce first key) :
    mapGet first key = mapGet second key := by
  have filtered := reordered.filter fun field =>
    field.1.asUnsigned = some key
  rw [AtMostOnce] at once
  rw [mapGet_eq_filter, mapGet_eq_filter]
  cases found : first.filter (fun field =>
      decide (field.1.asUnsigned = some key)) with
  | nil =>
      rw [found] at filtered
      rw [List.nil_perm.mp filtered]
  | cons field rest =>
      have alone : rest = [] := by
        rw [found, List.length_cons] at once
        exact List.eq_nil_of_length_eq_zero (by omega)
      rw [found, alone] at filtered
      rw [alone, List.singleton_perm.mp filtered]

/-- An unknown key makes no difference. -/
theorem mapGet_insert {before after : List (Value × Value)}
    {candidate : Value} (value : Value) {key : Nat} (other : candidate.asUnsigned ≠ some key) :
    mapGet (before ++ (candidate, value) :: after) key =
      mapGet (before ++ after) key := by
  have skipped : mapGet ((candidate, value) :: after) key =
      mapGet after key := by
    rw [mapGet_cons, if_neg other]
  have append : ∀ last, mapGet (before ++ last) key =
      (mapGet before key).or (mapGet last key) :=
    fun last => List.findSome?_append
  rw [append, append, skipped]

end Wire

/-! ## Bodies -/

/-- The numbers of a WELCOME are of 64 bits, and its capabilities are in
order. -/
structure WelcomeInfo.Typed (info : WelcomeInfo) : Prop where
  ordered : (info.capabilities.map Prod.fst).Pairwise (· < ·)
  capabilities : ∀ entry ∈ info.capabilities, entry.1 < 2 ^ 64
  maxNickBytes : ∀ limit ∈ info.limits.maxNickBytes, limit < 2 ^ 64
  maxRoomNameBytes : ∀ limit ∈ info.limits.maxRoomNameBytes, limit < 2 ^ 64
  maxMessageBodyBytes : ∀ limit ∈ info.limits.maxMessageBodyBytes, limit < 2 ^ 64
  maxRoomsPerSession : ∀ limit ∈ info.limits.maxRoomsPerSession, limit < 2 ^ 64
  rateMessagesPerMinute : ∀ limit ∈ info.limits.rateMessagesPerMinute, limit < 2 ^ 64

theorem integerBoolMapFrom_cons {candidate : Value} {number : Nat}
    (isNumber : candidate.asUnsigned = some number) (read : Capabilities)
    (enabled : Bool) (rest : List (Value × Value)) :
    integerBoolMapFrom read ((candidate, .bool enabled) :: rest) =
      integerBoolMapFrom (read.insert number enabled) rest := by
  rw [integerBoolMapFrom, isNumber]

/-- A greater capability comes last. -/
theorem Capabilities.insert_greater {read : Capabilities}
    {capability : Nat} (enabled : Bool) (greater : ∀ entry ∈ read, entry.1 < capability) :
    read.insert capability enabled = read ++ [(capability, enabled)] := by
  have kept : read.filter (fun entry => entry.1 ≠ capability) = read := by
    rw [List.filter_eq_self]
    intro entry member
    exact decide_eq_true (Nat.ne_of_lt (greater entry member))
  rw [Capabilities.insert, kept]

theorem integerBoolMapFrom_eq {read capabilities : Capabilities}
    (ordered : ((read ++ capabilities).map Prod.fst).Pairwise (· < ·))
    (fit : ∀ entry ∈ capabilities, entry.1 < 2 ^ 64) :
    integerBoolMapFrom read (capabilities.map fun entry =>
      (Value.unsigned entry.1, Value.bool entry.2)) =
      some (read ++ capabilities) := by
  induction capabilities generalizing read with
  | nil =>
      rw [List.append_nil]
      rfl
  | cons entry rest ih =>
      obtain ⟨capability, enabled⟩ := entry
      have isKey := asUnsigned_unsigned (fit _ List.mem_cons_self)
      have greater : ∀ earlier ∈ read, earlier.1 < capability := by
        intro earlier member
        rw [List.map_append, List.pairwise_append] at ordered
        exact ordered.2.2 earlier.1 (List.mem_map_of_mem member) capability List.mem_cons_self
      have together : read ++ (capability, enabled) :: rest =
          read ++ [(capability, enabled)] ++ rest := by
        rw [List.append_assoc, List.singleton_append]
      rw [together] at ordered ⊢
      rw [List.map_cons, integerBoolMapFrom_cons isKey,
        Capabilities.insert_greater enabled greater]
      exact ih ordered fun other member =>
        fit other (List.mem_cons_of_mem _ member)

/-- The limits that are sent. -/
def limitFields (limits : HubLimits) : List (Nat × Value) :=
  [(0, limits.maxNickBytes), (1, limits.maxRoomNameBytes),
    (2, limits.maxMessageBodyBytes), (3, limits.maxRoomsPerSession),
    (4, limits.rateMessagesPerMinute)].filterMap
      fun (key, limit) => limit.map fun value => (key, Value.unsigned value)

/-- A limit that is sent, or none. -/
theorem valueOf_limits_cons (own : Nat) (limit : Option Nat)
    (rest : List (Nat × Option Nat)) (key : Nat) :
    valueOf (((own, limit) :: rest).filterMap fun (key, limit) =>
        limit.map fun value => (key, Value.unsigned value)) key =
      (if own = key then limit.map Value.unsigned else none).or
        (valueOf (rest.filterMap fun (key, limit) =>
          limit.map fun value => (key, Value.unsigned value)) key) := by
  cases limit with
  | none =>
      rw [List.filterMap_cons, Option.map_none, ite_self, Option.none_or]
      rfl
  | some value =>
      rw [List.filterMap_cons]
      dsimp only [Option.map_some]
      rw [valueOf_cons]
      by_cases found : own = key
      · rw [if_pos found, if_pos found]
        rfl
      · rw [if_neg found, if_neg found, Option.none_or]

theorem keys_limitFields (limits : HubLimits) :
    ∀ field ∈ limitFields limits, field.1 < 2 ^ 64 := by
  intro field member
  obtain ⟨⟨key, limit⟩, isLimit, isField⟩ := List.mem_filterMap.mp member
  obtain ⟨value, -, same⟩ := Option.map_eq_some_iff.mp isField
  have small : key < 5 := by
    simp only [List.mem_cons, Prod.mk.injEq, List.not_mem_nil, or_false] at isLimit
    omega
  have wide : 5 ≤ 2 ^ 64 := by
    decide
  rw [← same]
  exact Nat.lt_of_lt_of_le small wide

/-- A limit is read as it was sent. -/
theorem bind_asUnsigned {limit : Option Nat} (fits : ∀ value ∈ limit, value < 2 ^ 64) :
    (limit.map Value.unsigned).bind Value.asUnsigned = limit := by
  cases limit with
  | none => rfl
  | some value =>
      rw [Option.map_some, Option.bind_some]
      exact asUnsigned_unsigned (fits value rfl)

theorem parseLimits_limitFields {info : WelcomeInfo} (typed : info.Typed) :
    parseLimits ((limitFields info.limits).map fun field =>
      (Value.unsigned field.1, field.2)) = info.limits := by
  have found := mapGet_integerMap (keys_limitFields info.limits)
  unfold parseLimits mapUsize
  rw [found, found, found, found, found]
  simp only [limitFields, valueOf_limits_cons, List.filterMap_nil,
    valueOf_nil, Nat.reduceEqDiff, OfNat.ofNat_ne_zero, OfNat.zero_ne_ofNat,
    OfNat.ofNat_ne_one, OfNat.one_ne_ofNat, Nat.zero_ne_one,
    Nat.one_ne_zero, if_true, if_false, Option.or_none, Option.none_or,
    bind_asUnsigned typed.maxNickBytes,
    bind_asUnsigned typed.maxRoomNameBytes,
    bind_asUnsigned typed.maxMessageBodyBytes,
    bind_asUnsigned typed.maxRoomsPerSession,
    bind_asUnsigned typed.rateMessagesPerMinute]

/-- The fields of a resource announcement. -/
def resourceFields (idBytes : List UInt8) (body : ResourceEnvelopeBody) :
    List (Nat × Value) :=
  [(resourceId, Value.bytes idBytes),
    (resourceKind, Value.text body.kind),
    (resourceSize, Value.unsigned body.size)] ++
  (body.sha256.map fun digest =>
    (resourceSha256, Value.bytes digest.val)).toList ++
  (body.encoding.map fun encoding =>
    (resourceEncoding, Value.text encoding)).toList

theorem mapGet_resourceFields (idBytes : List UInt8) (body : ResourceEnvelopeBody) (key : Nat) :
    mapGet ((resourceFields idBytes body).map fun field =>
      (Value.unsigned field.1, field.2)) key =
        valueOf (resourceFields idBytes body) key := by
  have keys : ((resourceFields idBytes body).map Prod.fst).Sublist
      (List.range 5) := by
    rw [resourceFields, List.map_append, List.map_append]
    exact ((List.Sublist.refl _).append
      (keys_optional body.sha256 resourceSha256 _)).append
      (keys_optional body.encoding resourceEncoding _)
  apply mapGet_integerMap
  intro field member
  have small := List.mem_range.mp (keys.subset (List.mem_map_of_mem member))
  exact Nat.lt_trans small (by decide)

/-- The fields of a WELCOME. -/
def welcomeFields (info : WelcomeInfo) : List (Nat × Value) :=
  (info.hubName.map fun name => (0, Value.text name)).toList ++
  (info.hubVersion.map fun version => (1, Value.text version)).toList ++
  [(2, Value.integerMap
    (info.capabilities.map fun (capability, enabled) =>
      (capability, Value.bool enabled)))] ++
  if (limitFields info.limits).isEmpty then []
  else [(3, Value.integerMap (limitFields info.limits))]

theorem mapGet_welcomeFields (info : WelcomeInfo) (key : Nat) :
    mapGet ((welcomeFields info).map fun field =>
      (Value.unsigned field.1, field.2)) key =
        valueOf (welcomeFields info) key := by
  have limits : ((if (limitFields info.limits).isEmpty then []
      else [(3, Value.integerMap (limitFields info.limits))]).map
        Prod.fst).Sublist [3] := by
    split
    · exact List.nil_sublist _
    · exact List.Sublist.refl _
  have keys : ((welcomeFields info).map Prod.fst).Sublist
      (List.range 4) := by
    rw [welcomeFields, List.map_append, List.map_append, List.map_append]
    exact (((keys_optional info.hubName 0 _).append
      (keys_optional info.hubVersion 1 _)).append
      (List.Sublist.refl _)).append limits
  apply mapGet_integerMap
  intro field member
  have small := List.mem_range.mp (keys.subset (List.mem_map_of_mem member))
  exact Nat.lt_trans small (by decide)

section Recovered

open Wire

variable {envelope : Envelope}

/-- A resource announcement is read as it was built. -/
theorem parseResourceEnvelope_resourceEnvelopeBody {body : ResourceEnvelopeBody} {id : Bytes 8}
    (isId : body.id = .wire id) (some_bytes : 0 < body.size) (fits : body.size < 2 ^ 64)
    (isBody : envelope.body = some (resourceEnvelopeBody id.val body)) :
    parseResourceEnvelope envelope = .ok body := by
  obtain ⟨entries, isEntries, found⟩ : ∃ entries,
      resourceEnvelopeBody id.val body = .map entries ∧
        ∀ key, mapGet entries key = valueOf (resourceFields id.val body) key :=
    ⟨_, rfl, mapGet_resourceFields id.val body⟩
  have isResourceId : mapGet entries resourceId =
      some (.bytes id.val) := by
    rw [found]
    simp [resourceFields]
  have isKind : mapGet entries resourceKind = some (.text body.kind) := by
    rw [found]
    simp [resourceFields, resourceId, resourceKind]
  have isSize : mapGet entries resourceSize =
      some (.unsigned body.size) := by
    rw [found]
    simp [resourceFields, resourceId, resourceKind, resourceSize]
  have isSha256 : mapGet entries resourceSha256 =
      body.sha256.map fun digest => Value.bytes digest.val := by
    rw [found]
    simp [resourceFields, resourceId, resourceKind, resourceSize,
      resourceSha256, resourceEncoding]
  have isEncoding : mapGet entries resourceEncoding =
      body.encoding.map Value.text := by
    rw [found]
    simp [resourceFields, resourceId, resourceKind, resourceSize,
      resourceSha256, resourceEncoding]
  have id_read := fixedBytes_of_mapGet isResourceId
  have size_read := requiredUnsigned_of_mapGet isSize (asUnsigned_unsigned fits)
  obtain ⟨ownId, kind, size, sha256, encoding⟩ := body
  dsimp only at isId some_bytes isKind isSha256 isEncoding size_read
  have nonzero : size ≠ 0 := by
    omega
  rw [parseResourceEnvelope, isBody, isEntries]
  cases sha256 with
  | none =>
      cases encoding <;>
        simp [id_read, size_read, isKind, isSha256, isEncoding, nonzero,
          isId, bind, Except.bind, pure, Except.pure]
  | some digest =>
      have sha_read := fixedBytes_of_mapGet isSha256
      cases encoding <;>
        simp [id_read, size_read, isKind, isSha256, isEncoding, nonzero,
          isId, sha_read, bind, Except.bind, pure, Except.pure]

/-- A WELCOME is read as it was built. -/
theorem parseWelcome_welcomeBody {info : WelcomeInfo} (typed : info.Typed)
    (isBody : envelope.body = some (welcomeBody info)) :
    parseWelcome envelope = info := by
  obtain ⟨entries, isEntries, found⟩ : ∃ entries,
      welcomeBody info = .map entries ∧
        ∀ key, mapGet entries key = valueOf (welcomeFields info) key :=
    ⟨_, rfl, mapGet_welcomeFields info⟩
  have isHubName : mapGet entries 0 = info.hubName.map Value.text := by
    rw [found]
    cases limits : (limitFields info.limits).isEmpty <;>
      simp [welcomeFields, limits]
  have isHubVersion : mapGet entries 1 =
      info.hubVersion.map Value.text := by
    rw [found]
    cases limits : (limitFields info.limits).isEmpty <;>
      simp [welcomeFields, limits]
  have isCapabilities : mapGet entries 2 = some (Value.integerMap
      (info.capabilities.map fun (capability, enabled) =>
        (capability, Value.bool enabled))) := by
    rw [found]
    cases limits : (limitFields info.limits).isEmpty <;>
      simp [welcomeFields]
  have isLimits : mapGet entries 3 =
      if (limitFields info.limits).isEmpty then none
      else some (Value.integerMap (limitFields info.limits)) := by
    rw [found]
    cases limits : (limitFields info.limits).isEmpty <;>
      simp [welcomeFields, limits]
  have capabilities : asIntegerBoolMap (Value.integerMap
      (info.capabilities.map fun (capability, enabled) =>
        (capability, Value.bool enabled))) = some info.capabilities := by
    rw [Value.integerMap, List.map_map, asIntegerBoolMap]
    exact integerBoolMapFrom_eq typed.ordered typed.capabilities
  have asText : ∀ text : Option String,
      (text.map Value.text).bind Value.asText = text := by
    intro text
    cases text <;> rfl
  rw [parseWelcome, isBody, isEntries]
  dsimp only
  rw [isHubName, isHubVersion, isCapabilities, isLimits, asText, asText,
    Option.bind_some, capabilities, Option.getD_some]
  have parsed := parseLimits_limitFields typed
  cases none : (limitFields info.limits).isEmpty with
  | false =>
      exact congrArg (WelcomeInfo.mk info.hubName info.hubVersion info.capabilities) parsed
  | true =>
      rw [List.isEmpty_iff] at none
      rw [none] at parsed
      exact congrArg (WelcomeInfo.mk info.hubName info.hubVersion info.capabilities) parsed

end Recovered

/-! ## The codec as a whole -/

/-- Envelopes and typed bodies are read as they were written, whatever the
order of the fields and whatever unknown ones there are. -/
structure EnvelopeCodec (cbor : Cbor) : Prop where
  written_read : ∀ envelope : Wire.Envelope, envelope.version = 1 →
    envelope.messageType.Canonical →
    ∃ bytes, Wire.encode cbor envelope = .ok bytes ∧ Wire.decode cbor bytes = .ok envelope
  read_again : ∀ data envelope, Wire.decode cbor data = .ok envelope →
    ∃ bytes, Wire.encode cbor envelope = .ok bytes ∧ Wire.decode cbor bytes = .ok envelope
  first_entries : ∀ first second firstFields secondFields,
    cbor.fromReader first = .ok (.map firstFields, first.length) →
    cbor.fromReader second = .ok (.map secondFields, second.length) →
    Wire.Keyed firstFields → Wire.Keyed secondFields →
    (∀ key ≤ kDestination, mapGet firstFields key = mapGet secondFields key) →
    Wire.decode cbor first = Wire.decode cbor second
  reordered : ∀ first second firstFields secondFields,
    cbor.fromReader first = .ok (.map firstFields, first.length) →
    cbor.fromReader second = .ok (.map secondFields, second.length) →
    firstFields.Perm secondFields →
    (∀ key ≤ kDestination, Wire.AtMostOnce firstFields key) →
    Wire.decode cbor first = Wire.decode cbor second
  unknown : ∀ first second before after candidate value number,
    cbor.fromReader first = .ok (.map (before ++ after), first.length) →
    cbor.fromReader second = .ok (.map (before ++ (candidate, value) :: after), second.length) →
    candidate.asUnsigned = some number → kDestination < number →
    Wire.decode cbor second = Wire.decode cbor first
  welcome : ∀ (envelope : Envelope) info, info.Typed →
    envelope.body = some (welcomeBody info) →
    parseWelcome envelope = info
  resource : ∀ (envelope : Envelope) body id, body.id = .wire id →
    0 < body.size → body.size < 2 ^ 64 →
    envelope.body = some (resourceEnvelopeBody id.val body) →
    parseResourceEnvelope envelope = .ok body
  members : ∀ (envelope : Envelope) members,
    envelope.body = some (memberList members) →
    memberIdentities envelope = members

section Decoding

open Wire

variable {cbor : Cbor}

theorem decode_of_fields {data : List UInt8} {entries : List (Value × Value)}
    (isRead : cbor.fromReader data = .ok (.map entries, data.length)) :
    decode cbor data = decodeFields entries := by
  have position : ¬ data.length ≠ data.length :=
    not_not.mpr rfl
  rw [decode, isRead]
  simp only [invalidCbor, bind, Except.bind, if_neg position]

/-- What is read is read from the fields of a map. -/
theorem fields_of_decode {data : List UInt8} {envelope : Wire.Envelope}
    (decoded : decode cbor data = .ok envelope) :
    ∃ entries, decodeFields entries = .ok envelope := by
  rw [decode, except_bind_ok] at decoded
  obtain ⟨⟨value, position⟩, -, decoded⟩ := decoded
  dsimp only at decoded
  split at decoded
  · cases decoded
  split at decoded
  · exact ⟨_, decoded⟩
  · cases decoded

/-- A field whose key is not unsigned spoils the whole. -/
theorem decodeFields_of_any {entries : List (Value × Value)}
    (spoilt : entries.any (fun field => field.1.asUnsigned.isNone) =
      true) : decodeFields entries = .error .invalidKey := by
  rw [decodeFields, if_pos spoilt]

theorem keyed_of_not_any {entries : List (Value × Value)}
    (sound : ¬ entries.any (fun field => field.1.asUnsigned.isNone) =
      true) : Keyed entries := by
  intro field member isNone
  exact sound (List.any_eq_true.mpr ⟨field, member, Option.isNone_iff_eq_none.mpr isNone⟩)

theorem decodeFields_perm {first second : List (Value × Value)}
    (reordered : first.Perm second) (once : ∀ key ≤ kDestination, AtMostOnce first key) :
    decodeFields first = decodeFields second := by
  by_cases spoilt : first.any (fun field =>
      field.1.asUnsigned.isNone) = true
  · have alsoSpoilt := spoilt
    rw [List.any_eq_true] at alsoSpoilt
    obtain ⟨field, member, isNone⟩ := alsoSpoilt
    rw [decodeFields_of_any spoilt, decodeFields_of_any
      (List.any_eq_true.mpr ⟨field, reordered.subset member, isNone⟩)]
  · have keyed := keyed_of_not_any spoilt
    refine decodeFields_congr keyed
      (fun field member => keyed field (reordered.symm.subset member)) ?_
    intro key isKnown
    exact mapGet_perm reordered (once key isKnown)

theorem decodeFields_insert {before after : List (Value × Value)}
    {candidate value : Value} {number : Nat}
    (isNumber : candidate.asUnsigned = some number) (isUnknown : kDestination < number) :
    decodeFields (before ++ (candidate, value) :: after) =
      decodeFields (before ++ after) := by
  by_cases spoilt : (before ++ after).any (fun field =>
      field.1.asUnsigned.isNone) = true
  · have alsoSpoilt := spoilt
    rw [List.any_eq_true] at alsoSpoilt
    obtain ⟨field, member, isNone⟩ := alsoSpoilt
    have isMember : field ∈ before ++ (candidate, value) :: after := by
      rcases List.mem_append.mp member with early | late
      · exact List.mem_append_left _ early
      · exact List.mem_append_right _ (List.mem_cons_of_mem _ late)
    rw [decodeFields_of_any spoilt, decodeFields_of_any
      (List.any_eq_true.mpr ⟨field, isMember, isNone⟩)]
  · have keyed := keyed_of_not_any spoilt
    have insertedKeyed : Keyed (before ++ (candidate, value) :: after) := by
      intro field member
      rcases List.mem_append.mp member with early | late
      · exact keyed field (List.mem_append_left _ early)
      · rcases List.mem_cons.mp late with isInserted | later
        · rw [isInserted, isNumber]
          exact Option.some_ne_none number
        · exact keyed field (List.mem_append_right _ later)
    refine decodeFields_congr insertedKeyed keyed ?_
    intro key isKnown
    apply mapGet_insert value
    rw [isNumber]
    intro same
    have isKey := Option.some.inj same
    omega

end Decoding

theorem envelopeCodec {cbor : Cbor} (correct : cbor.Correct) :
    EnvelopeCodec cbor where
  written_read _ version canonical :=
    Wire.decode_encode (correct _) version canonical
  read_again data envelope decoded := by
    obtain ⟨entries, isFields⟩ := fields_of_decode decoded
    obtain ⟨version, canonical⟩ := Wire.decodeFields_ok isFields
    exact Wire.decode_encode (correct _) version canonical
  first_entries _ _ _ _ isFirst isSecond firstKeyed secondKeyed same := by
    rw [decode_of_fields isFirst, decode_of_fields isSecond]
    exact Wire.decodeFields_congr firstKeyed secondKeyed same
  reordered _ _ _ _ isFirst isSecond reordered once := by
    rw [decode_of_fields isFirst, decode_of_fields isSecond]
    exact decodeFields_perm reordered once
  unknown _ _ _ _ _ _ _ isFirst isSecond isNumber isUnknown := by
    rw [decode_of_fields isFirst, decode_of_fields isSecond]
    exact decodeFields_insert isNumber isUnknown
  welcome _ _ typed isBody := parseWelcome_welcomeBody typed isBody
  resource _ _ _ isId some_bytes fits isBody :=
    parseResourceEnvelope_resourceEnvelopeBody isId some_bytes fits isBody
  members envelope _ isBody := memberIdentities_memberList _ envelope isBody

/-- A message of a type and with a body that only a later version knows. -/
private def laterEnvelope : Wire.Envelope where
  version := 1
  messageType := .unknown 63
  messageId := .replicate 8 1
  timestampMs := 1
  source := .replicate 16 2
  room := some "lobby"
  body := some (.array [.integer (-300), .tag 55799 (.map [(.text "future", .null)])])
  nickname := some "Zoë"
  destination := none

theorem envelopeCodec_plainCbor :
    EnvelopeCodec plainCbor ∧
      ∃ bytes, Wire.encode plainCbor laterEnvelope = .ok bytes ∧
        Wire.decode plainCbor bytes = .ok laterEnvelope := by
  have codec := envelopeCodec plainCbor_correct
  exact ⟨codec, codec.written_read laterEnvelope rfl ⟨63, by decide, rfl⟩⟩

end Ratspeak
