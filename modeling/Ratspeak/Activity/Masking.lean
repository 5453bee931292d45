import Ratspeak.Activity.Assignments

/-!
# Masking with fixed answers

Whatever a capture seals is masked as if every sensitive value had one answer
from the beginning: the one that the last table gives.  What it is masked to
is never longer than the event that the draft was validated against, so that
no draft of the capture is rejected.
-/

namespace Ratspeak.Activity

open Library

/-! ## Sensitive values -/

/-- A value with the domain in which it gets its pseudonym. -/
abbrev SensitiveValue := PseudonymDomain × List UInt8

/-- What stands for each value. -/
abbrev Answers := SensitiveValue → AssignedPseudonym

/-- The value that an attribute hides behind a pseudonym. -/
def DraftAttribute.sensitive (draft : DraftAttribute) :
    Option SensitiveValue :=
  match draft.value with
  | .protocolIdentifier kind raw => some (.protocol kind, raw)
  | .sensitiveEndpoint endpointClass raw =>
      some (.endpoint endpointClass, CapturePrivacy.endpointBytes raw)
  | .exact _ => none
  | .operationalCode _ => none
  | .opaqueLocalReference _ _ => none

def sensitiveValues (attributes : List DraftAttribute) :
    List SensitiveValue :=
  attributes.filterMap DraftAttribute.sensitive

/-- The masked form of an attribute. -/
def maskedWith (answers : Answers) (draft : DraftAttribute) :
    Option ActivityAttributeV1 :=
  match draft.value with
  | .exact value => some ⟨draft.key, value.wire⟩
  | .operationalCode code => some ⟨draft.key, .code code⟩
  | .protocolIdentifier kind raw =>
      some ⟨draft.key, .identifier ⟨kind,
        (answers (.protocol kind, raw)).rendered,
        (answers (.protocol kind, raw)).ordinal⟩⟩
  | .sensitiveEndpoint endpointClass _ => some ⟨draft.key, .endpoint endpointClass⟩
  | .opaqueLocalReference _ _ => none

/-- What is kept apart of attributes whose masked forms start at an index. -/
def rawWith (answers : Answers) (profile : CaptureProfile) :
    Nat → List DraftAttribute → List StoredRawField
  | _, [] => []
  | index, draft :: rest =>
      match draft.value with
      | .exact _ => rawWith answers profile (index + 1) rest
      | .operationalCode _ => rawWith answers profile (index + 1) rest
      | .protocolIdentifier kind raw =>
          ⟨draft.key, some index, .protocolIdentifier kind raw⟩ ::
            rawWith answers profile (index + 1) rest
      | .sensitiveEndpoint endpointClass raw =>
          ⟨draft.key, some index, .sensitiveEndpoint endpointClass
            (answers (.endpoint endpointClass, CapturePrivacy.endpointBytes raw)).rendered
            (if profile = .trace then some raw else none)⟩ ::
            rawWith answers profile (index + 1) rest
      | .opaqueLocalReference action raw =>
          ⟨draft.key, none, .opaqueLocalReference action raw⟩ ::
            rawWith answers profile index rest

/-- The form of an attribute in a safe copy. -/
def copiedWith (answers : Answers) (draft : DraftAttribute) :
    Option SafeCopyAttributeV1 :=
  match draft.value with
  | .exact (.boolean value) => some ⟨draft.key, .boolean value⟩
  | .exact (.signed value) => some ⟨draft.key, .signed value⟩
  | .exact (.unsigned value) => some ⟨draft.key, .unsigned value⟩
  | .operationalCode code => some ⟨draft.key, .code code⟩
  | .protocolIdentifier kind raw =>
      some ⟨draft.key, .identifier kind (answers (.protocol kind, raw)).rendered⟩
  | .sensitiveEndpoint endpointClass raw =>
      some ⟨draft.key, .endpoint endpointClass
        (answers (.endpoint endpointClass, CapturePrivacy.endpointBytes raw)).rendered⟩
  | .opaqueLocalReference _ _ => none

/-- What a draft is sealed to when the answers are fixed. -/
def storedWith (answers : Answers) (ready : ReadyDraft) (sequence : UInt64) :
    StoredEventV1 where
  wire := CapturePrivacy.wireEvent ready sequence
    (ready.attributes.filterMap (maskedWith answers))
  rawFields :=
    rawWith answers ready.context.captureProfile 0 ready.attributes

/-! ## Sealing the attributes -/

section Sealing

variable [PseudonymHash]

/-- The key under which the tables know a value. -/
def digestKey (key : List UInt8) (value : SensitiveValue) : DigestKey :=
  (value.1, CapturePrivacy.keyedHash key value.1 value.2)

/-- What a capture answers. -/
def CapturePrivacy.answers (privacy : CapturePrivacy) : Answers :=
  fun value => (privacy.assign value.1 value.2).2

/-- A capture after some more values came up. -/
def CapturePrivacy.assignValues (privacy : CapturePrivacy)
    (values : List SensitiveValue) : CapturePrivacy :=
  privacy.assignKeys (values.map (digestKey privacy.key))

theorem assign_eq (privacy : CapturePrivacy) (value : SensitiveValue) :
    privacy.assign value.1 value.2 =
      privacy.assignDigest (digestKey privacy.key value).1 (digestKey privacy.key value).2 :=
  rfl

theorem assignValues_cons (privacy : CapturePrivacy)
    (value : SensitiveValue) (values : List SensitiveValue) :
    privacy.assignValues (value :: values) =
      (privacy.assign value.1 value.2).1.assignValues values := by
  have same := sameCapture_assignDigest privacy (digestKey privacy.key value)
  rw [assign_eq]
  unfold CapturePrivacy.assignValues CapturePrivacy.assignKeys
  rw [List.map_cons, List.foldl_cons, same.key]

theorem assignValues_append (privacy : CapturePrivacy) (first second : List SensitiveValue) :
    privacy.assignValues (first ++ second) =
      (privacy.assignValues first).assignValues second := by
  have same := sameCapture_assignKeys privacy (first.map (digestKey privacy.key))
  unfold CapturePrivacy.assignValues
  rw [same.key, List.map_append]
  exact List.foldl_append

theorem sameCapture_assignValues (privacy : CapturePrivacy) (values : List SensitiveValue) :
    SameCapture privacy (privacy.assignValues values) :=
  sameCapture_assignKeys privacy _

theorem extends_assignValues (privacy : CapturePrivacy) (values : List SensitiveValue) :
    Extends privacy (privacy.assignValues values) := by
  induction values generalizing privacy with
  | nil => exact Extends.refl privacy
  | cons value values ih =>
      rw [assignValues_cons]
      have first := extends_assignDigest privacy (digestKey privacy.key value)
      exact first.trans (ih _)

/-- What is assigned now is what every later table answers. -/
theorem assign_eq_answer {privacy later : CapturePrivacy} {value : SensitiveValue}
    (after : Extends (privacy.assign value.1 value.2).1 later) :
    (privacy.assign value.1 value.2).2 = later.answers value := by
  have key : later.key = privacy.key := after.same.key.trans
    (sameCapture_assignDigest privacy (digestKey privacy.key value)).key
  have again :=
    @assignDigest_again privacy later (digestKey privacy.key value) after
  rw [CapturePrivacy.answers, assign_eq later, key, again]
  rfl

/-- Sealing attributes masks them with the answers of any later table. -/
theorem sealAttributes_eq (profile : CaptureProfile)
    (attributes : List DraftAttribute) (sealing : Sealing) {later : CapturePrivacy}
    (after : Extends (sealing.privacy.assignValues (sensitiveValues attributes)) later) :
    attributes.foldl (CapturePrivacy.sealAttribute profile) sealing =
      { privacy := sealing.privacy.assignValues (sensitiveValues attributes)
        maskedAttributes := sealing.maskedAttributes ++
          attributes.filterMap (maskedWith later.answers)
        rawFields := sealing.rawFields ++
          rawWith later.answers profile sealing.maskedAttributes.length
            attributes } := by
  induction attributes generalizing sealing with
  | nil =>
      simp [sensitiveValues, CapturePrivacy.assignValues, CapturePrivacy.assignKeys, rawWith]
  | cons draft rest ih =>
      obtain ⟨key, value⟩ := draft
      rw [List.foldl_cons]
      cases value with
      | exact value =>
          have values : sensitiveValues (⟨key, .exact value⟩ :: rest) =
              sensitiveValues rest := rfl
          rw [values] at after ⊢
          rw [ih (CapturePrivacy.sealAttribute profile sealing ⟨key, .exact value⟩) after]
          simp [CapturePrivacy.sealAttribute, maskedWith, rawWith]
      | operationalCode code =>
          have values : sensitiveValues (⟨key, .operationalCode code⟩ :: rest) =
              sensitiveValues rest := rfl
          rw [values] at after ⊢
          rw [ih (CapturePrivacy.sealAttribute profile
            sealing ⟨key, .operationalCode code⟩) after]
          simp [CapturePrivacy.sealAttribute, maskedWith, rawWith]
      | protocolIdentifier kind raw =>
          have values : sensitiveValues
              (⟨key, .protocolIdentifier kind raw⟩ :: rest) =
              (.protocol kind, raw) :: sensitiveValues rest := rfl
          rw [values, assignValues_cons] at after ⊢
          have answer := assign_eq_answer
            ((extends_assignValues _ (sensitiveValues rest)).trans after)
          rw [ih _ after]
          dsimp only at answer
          simp [CapturePrivacy.sealAttribute, maskedWith, rawWith, answer]
      | sensitiveEndpoint endpointClass raw =>
          have values : sensitiveValues
              (⟨key, .sensitiveEndpoint endpointClass raw⟩ :: rest) =
              (.endpoint endpointClass, CapturePrivacy.endpointBytes raw) ::
                sensitiveValues rest := rfl
          rw [values, assignValues_cons] at after ⊢
          have answer := assign_eq_answer
            ((extends_assignValues _ (sensitiveValues rest)).trans after)
          rw [ih _ after]
          dsimp only at answer
          simp [CapturePrivacy.sealAttribute, maskedWith, rawWith, answer]
      | opaqueLocalReference action raw =>
          have values : sensitiveValues (⟨key, .opaqueLocalReference action raw⟩ :: rest) =
              sensitiveValues rest := rfl
          have hidden : (⟨key, .opaqueLocalReference action raw⟩ ::
              rest).filterMap (maskedWith later.answers) =
              rest.filterMap (maskedWith later.answers) := rfl
          rw [values] at after ⊢
          rw [ih (CapturePrivacy.sealAttribute profile
            sealing ⟨key, .opaqueLocalReference action raw⟩) after, hidden]
          simp [CapturePrivacy.sealAttribute, rawWith]

end Sealing

/-! ## Safe copies -/

/-- What is kept of an endpoint: its pseudonym, and its text in a trace. -/
theorem rawWith_endpoint {answers : Answers} {profile : CaptureProfile}
    {index : Nat} {attributes : List DraftAttribute} {field : StoredRawField}
    (inside : field ∈ rawWith answers profile index attributes)
    {endpointClass : EndpointClass} {pseudonym : String} {raw : Option String}
    (shape : field.value = .sensitiveEndpoint endpointClass pseudonym raw) :
    (∃ value, pseudonym = (answers value).rendered) ∧
      (profile ≠ .trace → raw = none) := by
  induction attributes generalizing index with
  | nil => cases inside
  | cons draft rest ih =>
      obtain ⟨key, value⟩ := draft
      cases value with
      | exact value => exact ih inside
      | operationalCode code => exact ih inside
      | protocolIdentifier kind text =>
          rcases List.mem_cons.mp inside with rfl | later
          · cases shape
          · exact ih later
      | sensitiveEndpoint sort text =>
          rcases List.mem_cons.mp inside with rfl | later
          · cases shape
            exact ⟨⟨_, rfl⟩, fun other => if_neg other⟩
          · exact ih later
      | opaqueLocalReference action text =>
          rcases List.mem_cons.mp inside with rfl | later
          · cases shape
          · exact ih later

/-- The pseudonyms of endpoints are found at the indices of their masked
forms. -/
theorem safeCopyAttributes_eq (answers : Answers) (profile : CaptureProfile)
    (found : Nat → Option String) (index : Nat) (attributes : List DraftAttribute)
    (agrees : ∀ place ≥ index, ∀ pseudonym,
      (rawWith answers profile index attributes).findSome?
          (StoredRawField.endpointPseudonym place) = some pseudonym →
        found place = some pseudonym) :
    safeCopyAttributes found index
        (attributes.filterMap (maskedWith answers)) =
      .ok (attributes.filterMap (copiedWith answers)) := by
  induction attributes generalizing index with
  | nil => rfl
  | cons draft rest ih =>
      obtain ⟨key, value⟩ := draft
      cases value with
      | exact value =>
          have tail := ih (index + 1) fun place later => agrees place (by omega)
          cases value <;>
            simp [maskedWith, copiedWith, safeCopyAttributes, tail,
              ExactValue.wire, SafeCopyAttributeV1.fromMasked]
      | operationalCode code =>
          have tail := ih (index + 1) fun place later => agrees place (by omega)
          simp [maskedWith, copiedWith, safeCopyAttributes, tail,
            SafeCopyAttributeV1.fromMasked]
      | protocolIdentifier kind raw =>
          have tail := ih (index + 1)
            fun place later pseudonym known => by
              have other : index ≠ place := by omega
              refine agrees place (by omega) pseudonym ?_
              simpa [rawWith, StoredRawField.endpointPseudonym, other] using known
          simp [maskedWith, copiedWith, safeCopyAttributes, tail,
            SafeCopyAttributeV1.fromMasked]
      | sensitiveEndpoint endpointClass raw =>
          have tail := ih (index + 1)
            fun place later pseudonym known => by
              have other : index ≠ place := by omega
              refine agrees place (by omega) pseudonym ?_
              simpa [rawWith, StoredRawField.endpointPseudonym, other] using known
          have head := agrees index (Nat.le_refl _)
            (answers (.endpoint endpointClass, CapturePrivacy.endpointBytes raw)).rendered
            (by simp [rawWith, StoredRawField.endpointPseudonym])
          simp [maskedWith, copiedWith, safeCopyAttributes, tail, head,
            SafeCopyAttributeV1.fromMasked]
      | opaqueLocalReference action raw =>
          have tail := ih index
            fun place later pseudonym known => by
              refine agrees place later pseudonym ?_
              simpa [rawWith, StoredRawField.endpointPseudonym] using known
          rw [List.filterMap_cons_none rfl, List.filterMap_cons_none rfl]
          exact tail

theorem storedWith_safeCopy (answers : Answers) (ready : ReadyDraft) (sequence : UInt64) :
    (storedWith answers ready sequence).safeCopy =
      .ok { CapturePrivacy.wireEvent ready sequence [] with
        attributes := ready.attributes.filterMap (copiedWith answers) } := by
  have copied := safeCopyAttributes_eq answers ready.context.captureProfile
    (fun index => (storedWith answers ready sequence).rawFields.findSome?
      (StoredRawField.endpointPseudonym index)) 0 ready.attributes
    fun _ _ _ known => known
  unfold StoredEventV1.safeCopy safeCopyProjection EventV1.safeCopyWithEndpointPseudonyms
  have wire : (storedWith answers ready sequence).wire.attributes =
      ready.attributes.filterMap (maskedWith answers) := rfl
  rw [wire, copied]
  rfl

/-! ## Nothing is too large -/

private theorem plain_hexDigit :
    ∀ nibble < 16, Json.Plain (hexDigit nibble) := by
  decide

private theorem plain_hexEncode (bytes : List UInt8) :
    ∀ char ∈ (hexEncode bytes).toList, Json.Plain char := by
  rw [hexEncode, String.toList_ofList]
  induction bytes with
  | nil =>
      intro char inside
      cases inside
  | cons byte rest ih =>
      have small : byte.toNat < 256 := byte.toNat_lt
      intro char inside
      simp only [hexChars, List.mem_cons] at inside
      rcases inside with rfl | rfl | later
      · exact plain_hexDigit _ (by omega)
      · exact plain_hexDigit _ (by omega)
      · exact ih char later

/-- The answers to some values are no longer than a digest. -/
def ShortAnswers (answers : Answers) (values : List SensitiveValue) : Prop :=
  ∀ value ∈ values, ∃ bytes : List UInt8, bytes.length ≤ 32 ∧
    (answers value).rendered = hexEncode bytes

/-- The longest answer to every value. -/
def longestAnswers : Answers :=
  fun _ => ⟨maxWirePseudonym, some (UInt32.ofNat (2 ^ 32 - 1))⟩

theorem conservativeProjection_eq (draft : DraftAttribute) :
    conservativeProjection draft = maskedWith longestAnswers draft := by
  obtain ⟨key, value⟩ := draft
  cases value <;> rfl

private theorem shorter_pseudonym {rendered : String} {bytes : List UInt8}
    (short : bytes.length ≤ 32) (shape : rendered = hexEncode bytes) :
    Json.Shorter (Json.string rendered) (Json.string maxWirePseudonym) := by
  subst shape
  refine Json.shorter_string (plain_hexEncode bytes) (plain_hexEncode _) ?_
  rw [length_hexEncode, maxWirePseudonym, length_hexEncode, List.length_replicate]
  omega

private theorem shorter_identifier {kind : IdentifierKind}
    {answer : AssignedPseudonym} {bytes : List UInt8}
    (short : bytes.length ≤ 32) (shape : answer.rendered = hexEncode bytes)
    (key : ActivityAttributeKey) :
    Json.Shorter
      (ActivityAttributeV1.json ⟨key, .identifier ⟨kind, answer.rendered, answer.ordinal⟩⟩)
      (ActivityAttributeV1.json ⟨key, .identifier ⟨kind, maxWirePseudonym,
        some (UInt32.ofNat (2 ^ 32 - 1))⟩⟩) := by
  refine Json.shorter_object (.cons (.refl _) (.cons ⟨rfl, ?_⟩ .nil))
  refine Json.shorter_object (.cons (.refl _) (.cons ⟨rfl, ?_⟩ .nil))
  refine Json.shorter_object (.cons (.refl _) (.cons ⟨rfl, shorter_pseudonym short shape⟩ ?_))
  cases answer.ordinal with
  | none => exact .nil
  | some ordinal =>
      have bound : ordinal.toNat ≤ 2 ^ 32 - 1 := by
        have := ordinal.toNat_lt
        omega
      exact .cons ⟨rfl, Json.shorter_natural bound⟩ .nil

private theorem ShortAnswers.tail {answers : Answers}
    {draft : DraftAttribute} {rest : List DraftAttribute}
    (short : ShortAnswers answers (sensitiveValues (draft :: rest))) :
    ShortAnswers answers (sensitiveValues rest) := by
  intro value inside
  obtain ⟨source, member, found⟩ := List.mem_filterMap.mp inside
  exact short value (List.mem_filterMap.mpr ⟨source, List.mem_cons_of_mem _ member, found⟩)

/-- Short answers make masked attributes that are no longer. -/
theorem shorter_maskedWith {answers : Answers} {attributes : List DraftAttribute}
    (short : ShortAnswers answers (sensitiveValues attributes)) :
    List.Forall₂
      (fun first second => Json.Shorter (ActivityAttributeV1.json first)
        (ActivityAttributeV1.json second))
      (attributes.filterMap (maskedWith answers))
      (attributes.filterMap (maskedWith longestAnswers)) := by
  induction attributes with
  | nil => exact .nil
  | cons draft rest ih =>
      have tail := ih short.tail
      obtain ⟨key, value⟩ := draft
      cases value with
      | exact value => exact .cons (Json.Shorter.refl _) tail
      | operationalCode code => exact .cons (Json.Shorter.refl _) tail
      | protocolIdentifier kind raw =>
          obtain ⟨bytes, length, shape⟩ := short (.protocol kind, raw) (List.mem_cons_self ..)
          exact .cons (shorter_identifier length shape key) tail
      | sensitiveEndpoint endpointClass raw => exact .cons (Json.Shorter.refl _) tail
      | opaqueLocalReference action raw => exact tail

private theorem shorter_copied {bytes : List UInt8} {rendered : String}
    (short : bytes.length ≤ 32) (shape : rendered = hexEncode bytes)
    (key : ActivityAttributeKey) :
    (∀ kind : IdentifierKind, Json.Shorter
      (SafeCopyAttributeV1.json ⟨key, .identifier kind rendered⟩)
      (SafeCopyAttributeV1.json ⟨key, .identifier kind maxWirePseudonym⟩)) ∧
    ∀ endpointClass : EndpointClass, Json.Shorter
      (SafeCopyAttributeV1.json ⟨key, .endpoint endpointClass rendered⟩)
      (SafeCopyAttributeV1.json
        ⟨key, .endpoint endpointClass maxWirePseudonym⟩) := by
  have pseudonym := shorter_pseudonym short shape
  constructor
  · intro kind
    refine Json.shorter_object (.cons (.refl _) (.cons ⟨rfl, ?_⟩ .nil))
    refine Json.shorter_object (.cons (.refl _) (.cons ⟨rfl, ?_⟩ .nil))
    exact Json.shorter_object (.cons (.refl _) (.cons ⟨rfl, pseudonym⟩ .nil))
  · intro endpointClass
    refine Json.shorter_object (.cons (.refl _) (.cons ⟨rfl, ?_⟩ .nil))
    refine Json.shorter_object (.cons (.refl _) (.cons ⟨rfl, ?_⟩ .nil))
    exact Json.shorter_object (.cons (.refl _) (.cons ⟨rfl, pseudonym⟩ .nil))

theorem shorter_copiedWith {answers : Answers} {attributes : List DraftAttribute}
    (short : ShortAnswers answers (sensitiveValues attributes)) :
    List.Forall₂
      (fun first second => Json.Shorter (SafeCopyAttributeV1.json first)
        (SafeCopyAttributeV1.json second))
      (attributes.filterMap (copiedWith answers))
      (attributes.filterMap (copiedWith longestAnswers)) := by
  induction attributes with
  | nil => exact .nil
  | cons draft rest ih =>
      have tail := ih short.tail
      obtain ⟨key, value⟩ := draft
      cases value with
      | exact value => cases value <;> exact .cons (Json.Shorter.refl _) tail
      | operationalCode code => exact .cons (Json.Shorter.refl _) tail
      | protocolIdentifier kind raw =>
          obtain ⟨bytes, length, shape⟩ := short (.protocol kind, raw) (List.mem_cons_self ..)
          exact .cons ((shorter_copied length shape key).1 kind) tail
      | sensitiveEndpoint endpointClass raw =>
          obtain ⟨bytes, length, shape⟩ := short
            (.endpoint endpointClass, CapturePrivacy.endpointBytes raw)
            (List.mem_cons_self ..)
          exact .cons ((shorter_copied length shape key).2 endpointClass) tail
      | opaqueLocalReference action raw => exact tail

private theorem le_last (number : UInt64) :
    number ≤ UInt64.ofNat (2 ^ 64 - 1) := by
  have bound := number.toNat_lt
  rw [UInt64.le_iff_toNat_le, UInt64.toNat_ofNat_of_lt' (by decide)]
  omega

/-- The event of a draft stays within the longest one. -/
theorem wireEvent_within {Attribute : Type}
    {attributeJson : Attribute → List Char} (ready : ReadyDraft)
    (sequence : UInt64) {shown longest : List Attribute} (shorter : List.Forall₂
      (fun first second => Json.Shorter (attributeJson first)
        (attributeJson second)) shown longest) :
    EventV1.Within attributeJson
      { CapturePrivacy.wireEvent ready sequence [] with attributes := shown }
      { ready.toActivityDraft.conservative ready.context with
        attributes := longest } := by
  have present {stamp : Option UInt64} :
      EventV1.OptionWithin (fun first second => first ≤ second) stamp
        (some (UInt64.ofNat (2 ^ 64 - 1))) :=
    fun value _ => ⟨_, rfl, le_last value⟩
  refine ⟨rfl, le_last _, rfl, le_last _, le_last _, le_last _, rfl, rfl, rfl,
    rfl, rfl, rfl, rfl, shorter, ?_, present, ?_, present, present⟩
  · intro text known
    change ready.correlationId.map CorrelationId.wire = some text at known
    refine ⟨text, ?_, rfl⟩
    change (ready.correlationId.map CorrelationId.wire).or _ = some text
    rw [known]
    rfl
  · have bound := ready.count.toNat_lt
    change ready.count ≤ UInt32.ofNat (2 ^ 32 - 1)
    rw [UInt32.le_iff_toNat_le, UInt32.toNat_ofNat_of_lt' (by decide)]
    omega

theorem wireBytes_storedWith {answers : Answers} (ready : ReadyDraft) (sequence : UInt64)
    (short : ShortAnswers answers (sensitiveValues ready.attributes)) :
    (storedWith answers ready sequence).wire.wireBytes ≤
      maxEncodedEventBytes := by
  have within := wireEvent_within ready sequence (shorter_maskedWith short)
  have longest : ready.toActivityDraft.conservative ready.context =
      { ready.toActivityDraft.conservative ready.context with
        attributes :=
          ready.attributes.filterMap (maskedWith longestAnswers) } := by
    have projection : conservativeProjection = maskedWith longestAnswers :=
      funext conservativeProjection_eq
    rw [← projection]
    rfl
  have fits := ready.wireFits
  rw [longest] at fits
  exact Nat.le_trans within.encodedBytes_le fits

theorem conservativeCopy_eq (draft : ActivityDraft) (context : DraftContext) :
    draft.conservativeCopy context =
      .ok { draft.conservative context with
        attributes :=
          draft.attributes.filterMap (copiedWith longestAnswers) } := by
  have copied := safeCopyAttributes_eq longestAnswers .normal
    (fun _ => some maxWirePseudonym) 0 draft.attributes
    fun place _ pseudonym known => by
      obtain ⟨field, inside, found⟩ := List.exists_of_findSome?_eq_some known
      unfold StoredRawField.endpointPseudonym at found
      split at found
      · cases found
      · split at found
        · rename_i endpointClass shown raw shape
          obtain ⟨⟨value, same⟩, _⟩ := rawWith_endpoint inside shape
          cases found
          rw [same]
          rfl
        · cases found
        · cases found
  have projection : conservativeProjection = maskedWith longestAnswers :=
    funext conservativeProjection_eq
  have wire : (draft.conservative context).attributes =
      draft.attributes.filterMap (maskedWith longestAnswers) := by
    rw [← projection]
    rfl
  unfold ActivityDraft.conservativeCopy EventV1.safeCopyWithEndpointPseudonyms
  rw [wire, copied]

theorem copyBytes_storedWith {answers : Answers} (ready : ReadyDraft) (sequence : UInt64)
    (short : ShortAnswers answers (sensitiveValues ready.attributes)) :
    ({ CapturePrivacy.wireEvent ready sequence [] with
        attributes := ready.attributes.filterMap (copiedWith answers)
      } : SafeCopyEventV1).copyBytes ≤ maxEncodedEventBytes := by
  have within := wireEvent_within ready sequence (shorter_copiedWith short)
  obtain ⟨copy, copied, fits⟩ := ready.copyFits
  rw [conservativeCopy_eq] at copied
  cases copied
  exact Nat.le_trans within.encodedBytes_le fits

/-- With short answers every draft can be stored. -/
theorem stored_storedWith {answers : Answers} (ready : ReadyDraft) (sequence : UInt64)
    (short : ShortAnswers answers (sensitiveValues ready.attributes)) :
    CapturePrivacy.stored (storedWith answers ready sequence).wire
        (storedWith answers ready sequence).rawFields =
      .ok (storedWith answers ready sequence) := by
  have wireFits := wireBytes_storedWith ready sequence short
  have copyFits := copyBytes_storedWith ready sequence short
  have copied := storedWith_safeCopy answers ready sequence
  unfold StoredEventV1.safeCopy at copied
  unfold CapturePrivacy.stored
  rw [if_neg (Nat.not_lt.mpr wireFits), copied]
  dsimp only
  rw [if_neg (Nat.not_lt.mpr copyFits)]

end Ratspeak.Activity
