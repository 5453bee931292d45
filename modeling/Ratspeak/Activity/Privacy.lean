import Ratspeak.Activity.Renaming

/-!
# The privacy of a capture

One statement about everything that a capture shows: which answers it masks
with, that they keep values apart and number them, that its tables stay within
their limit, that it keeps no text of endpoints unless it traces, and that
nothing else about raw values can be seen.
-/

namespace Ratspeak.Activity

open Library

section Capture

variable [PseudonymHash]

/-- What holds of the drafts that a capture seals, when it masks with some
answers. -/
structure Masking (privacy : CapturePrivacy)
    (drafts : List (ReadyDraft × UInt64)) (answers : Answers) : Prop where
  /-- Equal values are masked with one answer, whenever they come up. -/
  results : (privacy.sealAll drafts).2 = drafts.map (sealedWith privacy.captureSession answers)
  distinct : Distinct (acceptedValues privacy.captureSession drafts) answers
  numbered : Numbered privacy.maxTrackedPseudonyms
    (acceptedValues privacy.captureSession drafts) answers
  bounded : (privacy.sealAll drafts).1.byDigest.keys.length ≤
      privacy.maxTrackedPseudonyms ∧
    (privacy.sealAll drafts).1.byRendered.keys.length ≤ privacy.maxTrackedPseudonyms
  /-- Without a trace the texts of endpoints are not kept. -/
  untold : ∀ stored, .ok stored ∈ (privacy.sealAll drafts).2 →
    stored.wire.captureProfile ≠ .trace →
      (∀ field ∈ stored.rawFields, ∀ endpointClass pseudonym raw,
        field.value = .sensitiveEndpoint endpointClass pseudonym raw → raw = none) ∧
      ∀ key, stored.revealEndpoint key = none
  /-- Other raw values with the same pattern change names at most. -/
  relabels : ∀ others, List.Forall₂ AlikeDraft drafts others →
    HashApart privacy.key (acceptedValues privacy.captureSession others) →
    SamePattern (acceptedValues privacy.captureSession drafts)
      (acceptedValues privacy.captureSession others) →
    ∃ relabel : String → String,
      (∀ value ∈ acceptedValues privacy.captureSession drafts,
        ∀ other ∈ acceptedValues privacy.captureSession drafts,
          relabel (answers value).rendered =
              relabel (answers other).rendered →
            (answers value).rendered = (answers other).rendered) ∧
      (privacy.sealAll others).2.map seen =
        (privacy.sealAll drafts).2.map fun result =>
          renameSeen relabel (seen result)

/-- The capture of a platform. -/
def platformCapture (key session : List UInt8) (platform : Platform) :
    CapturePrivacy :=
  .fromMaterialWithLimit key session (platformMaxTrackedPseudonyms platform)

omit [PseudonymHash] in
theorem countable_platform (platform : Platform) :
    platformMaxTrackedPseudonyms platform < 2 ^ 32 := by
  cases platform <;> decide

/-- Everything that was sealed is masked with the answers of the last
table. -/
private theorem sealAll_lastTable {key : List UInt8} (session : List UInt8)
    {limit : Nat} (countable : limit < 2 ^ 32) {drafts : List (ReadyDraft × UInt64)}
    (apart : HashApart key (acceptedValues (hexEncode session) drafts)) :
    (CapturePrivacy.fromMaterialWithLimit key session limit).sealAll drafts =
      (lastTable key session limit
          (acceptedValues (hexEncode session) drafts),
        drafts.map (sealedWith (hexEncode session)
          (lastTable key session limit (acceptedValues (hexEncode session) drafts)).answers)) :=
  sealAll_eq drafts (.fromMaterialWithLimit key session limit)
    (Extends.refl _) (lastTable_short session countable apart)

omit [PseudonymHash] in
private theorem untold_storedWith {session : String} {answers : Answers}
    {drafts : List (ReadyDraft × UInt64)} {stored : StoredEventV1}
    (inside : .ok stored ∈ drafts.map (sealedWith session answers))
    (untraced : stored.wire.captureProfile ≠ .trace) :
    (∀ field ∈ stored.rawFields, ∀ endpointClass pseudonym raw,
      field.value = .sensitiveEndpoint endpointClass pseudonym raw → raw = none) ∧
      ∀ key, stored.revealEndpoint key = none := by
  obtain ⟨entry, _, result⟩ := List.mem_map.mp inside
  unfold sealedWith at result
  split at result
  · cases result
    constructor
    · intro field member endpointClass pseudonym raw shape
      exact (rawWith_endpoint member shape).2 untraced
    · intro key
      rw [StoredEventV1.revealEndpoint, if_pos untraced]
  · cases result

/-- Where the keyed hash tells the values apart, a capture masks them all with
fixed answers, and shows nothing else about them. -/
theorem masking_run (key session : List UInt8) (platform : Platform)
    (drafts : List (ReadyDraft × UInt64))
    (apart : HashApart key (acceptedValues (hexEncode session) drafts)) :
    ∃ answers, Masking (platformCapture key session platform) drafts
      answers := by
  have countable := countable_platform platform
  have run := sealAll_lastTable session countable apart
  have holds := lastTable_holds session countable apart
  have distinct : Distinct (acceptedValues (hexEncode session) drafts)
      (lastTable key session (platformMaxTrackedPseudonyms platform)
        (acceptedValues (hexEncode session) drafts)).answers :=
    fun value one other two equal =>
      lastTable_distinct session countable apart one two equal
  have numbered : Numbered (platformMaxTrackedPseudonyms platform)
      (acceptedValues (hexEncode session) drafts)
      (lastTable key session (platformMaxTrackedPseudonyms platform)
        (acceptedValues (hexEncode session) drafts)).answers :=
    fun before value after split =>
      (lastTable_answer session countable apart split).2
  refine ⟨_,
    { results := congrArg Prod.snd run
      distinct := distinct
      numbered := numbered
      bounded := ?_
      untold := ?_
      relabels := ?_ }⟩
  · rw [platformCapture, run]
    have limited := holds.limited
    rw [(lastTable_same ..).2] at limited
    exact ⟨holds.size.trans_le limited, holds.renderedSize.trans limited⟩
  · intro stored inside
    rw [platformCapture, run] at inside
    exact untold_storedWith inside
  · intro others alike otherApart pattern
    have told : HashApart key (acceptedValues (hexEncode session) others) :=
      otherApart
    have otherRun := sealAll_lastTable session countable told
    have otherDistinct : Distinct (acceptedValues (hexEncode session) others)
        (lastTable key session (platformMaxTrackedPseudonyms platform)
          (acceptedValues (hexEncode session) others)).answers :=
      fun value one other two equal =>
        lastTable_distinct session countable told one two equal
    have domains : ∀ pair ∈ (acceptedValues (hexEncode session) drafts).zip
        (acceptedValues (hexEncode session) others), pair.1.1 = pair.2.1 :=
      fun pair inside => (List.forall₂_iff_zip.mp
        (acceptedValues_alike (hexEncode session) alike)).2 inside
    refine ⟨relabelled _ _ _, fun value one other two equal =>
      relabelled_injective pattern distinct otherDistinct one two equal, ?_⟩
    rw [platformCapture, run, otherRun]
    simp only [List.map_map]
    refine sealedWith_alike (hexEncode session) alike fun pair inside => ?_
    exact ⟨(relabelled_eq pattern distinct inside).symm,
      ordinal_alike pattern domains numbered
        (fun before value after split =>
          (lastTable_answer session countable told split).2) inside⟩

end Capture

/-! ## Two paths over one endpoint -/

/-- The keyed hash on the three values below. -/
@[reducible] private def pathHash : PseudonymHash where
  hmacSha256 := fun _ input =>
    if input[31]? ≠ some 1 then
      ⟨[215, 200, 255, 62, 106, 102, 178, 252, 99, 152, 173, 150, 198, 14,
        142, 50, 94, 101, 115, 98, 67, 139, 129, 42, 59, 103, 162, 150, 237,
        156, 175, 12], rfl⟩
    else if input[41]? = some 7 then
      ⟨[246, 155, 163, 114, 213, 230, 48, 159, 203, 50, 100, 188, 135, 188, 6,
        208, 249, 94, 172, 247, 79, 130, 137, 156, 163, 95, 243, 84, 210, 155,
        144, 7], rfl⟩
    else
      ⟨[252, 240, 94, 191, 208, 57, 221, 96, 140, 27, 63, 123, 26, 6, 185,
        233, 178, 38, 250, 191, 157, 234, 155, 165, 158, 228, 3, 147, 65, 124,
        234, 43], rfl⟩

/-- A path to one of two destinations. -/
private def pathDraft (other : Bool) : ActivityDraft where
  kind := ⟨"rns.path.discovered", .network, "rns.path.discovered"⟩
  severity := .info
  direction := .inbound
  outcome := .success
  timestampUnixMs := 100
  elapsedMs := 20
  attributes :=
    [⟨.destination, .protocolIdentifier .destination
        (List.replicate 16 (if other then 8 else 7))⟩,
      ⟨.endpoint, .sensitiveEndpoint .tcp "example.net:4242"⟩]
  correlationId := none
  parentSequence := none

private def pathContext : DraftContext where
  captureSession := hexEncode (List.replicate 16 1)
  captureGeneration := 1
  captureProfile := .normal

private theorem pathWireFits (other : Bool) :
    ((pathDraft other).conservative pathContext).wireBytes ≤
      maxEncodedEventBytes := by
  cases other <;> decide +kernel

private theorem pathCopyFits (other : Bool) :
    ∃ copy, (pathDraft other).conservativeCopy pathContext = .ok copy ∧
      copy.copyBytes ≤ maxEncodedEventBytes := by
  cases other with
  | false => exact ⟨_, rfl, by decide +kernel⟩
  | true => exact ⟨_, rfl, by decide +kernel⟩

private def pathReady (other : Bool) : ReadyDraft :=
  { pathDraft other with
    context := pathContext
    count := 1
    firstTimestampMs := none
    lastTimestampMs := none
    limited := by cases other <;> decide
    wireFits := pathWireFits other
    copyFits := pathCopyFits other }

private def pathDrafts : List (ReadyDraft × UInt64) :=
  [(pathReady false, 1), (pathReady true, 2), (pathReady false, 3)]

private theorem path_apart :
    @HashApart pathHash (List.replicate 32 1)
      (acceptedValues (hexEncode (List.replicate 16 1)) pathDrafts) := by
  unfold HashApart
  decide +kernel

/-- Two destinations, the first of them twice, over one endpoint. -/
theorem masking_run_paths :
    ∃ answers, @Masking pathHash
      (platformCapture (List.replicate 32 1) (List.replicate 16 1) .desktop)
      pathDrafts answers :=
  @masking_run pathHash (List.replicate 32 1) (List.replicate 16 1) .desktop
    pathDrafts path_apart

end Ratspeak.Activity
