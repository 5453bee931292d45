import Ratspeak.Activity.Masking

/-!
# What a capture shows

All drafts that one capture seals are masked with the same answers.  The
answers keep different values apart, number the values of a domain in the
order in which they came up, and depend on the values only through the
question which of them are equal: replacing all raw values by others with the
same pattern renames the pseudonyms and changes nothing else.
-/

namespace Ratspeak.Activity

open Library

variable [PseudonymHash]

/-! ## Sealing with the last answers -/

/-- The values that a session hides, in the order in which they come up. -/
def acceptedValues (session : String)
    (drafts : List (ReadyDraft × UInt64)) : List SensitiveValue :=
  drafts.flatMap fun entry =>
    if entry.1.context.captureSession = session then
      sensitiveValues entry.1.attributes
    else []

/-- The result for a draft when the answers are fixed. -/
def sealedWith (session : String) (answers : Answers) (entry : ReadyDraft × UInt64) :
    Except ActivityRejectReason StoredEventV1 :=
  if entry.1.context.captureSession = session then
    .ok (storedWith answers entry.1 entry.2)
  else .error .captureContextMismatch

theorem seal_eq (privacy : CapturePrivacy) (ready : ReadyDraft)
    (sequence : UInt64) {later : CapturePrivacy}
    (session : ready.context.captureSession = privacy.captureSession) (after : Extends
      (privacy.assignValues (sensitiveValues ready.attributes)) later)
    (short : ShortAnswers later.answers (sensitiveValues ready.attributes)) :
    privacy.seal ready sequence =
      (privacy.assignValues (sensitiveValues ready.attributes),
        .ok (storedWith later.answers ready sequence)) := by
  have sealed := sealAttributes_eq ready.context.captureProfile
    ready.attributes ⟨privacy, [], []⟩ after
  have result := stored_storedWith ready sequence short
  unfold CapturePrivacy.seal
  rw [if_neg (not_not.mpr session), sealed]
  simp only [List.nil_append, List.length_nil]
  simp only [storedWith] at result ⊢
  rw [result]

theorem sealAll_eq (drafts : List (ReadyDraft × UInt64))
    (privacy : CapturePrivacy) {later : CapturePrivacy} (after : Extends (privacy.assignValues
      (acceptedValues privacy.captureSession drafts)) later)
    (short : ShortAnswers later.answers (acceptedValues privacy.captureSession drafts)) :
    privacy.sealAll drafts =
      (privacy.assignValues (acceptedValues privacy.captureSession drafts),
        drafts.map (sealedWith privacy.captureSession later.answers)) := by
  induction drafts generalizing privacy with
  | nil => rfl
  | cons entry rest ih =>
      obtain ⟨ready, sequence⟩ := entry
      by_cases session : ready.context.captureSession = privacy.captureSession
      · have values : acceptedValues privacy.captureSession
            ((ready, sequence) :: rest) = sensitiveValues ready.attributes ++
              acceptedValues privacy.captureSession rest := by
          simp [acceptedValues, session]
        rw [values] at after short ⊢
        rw [assignValues_append] at after ⊢
        have same := sameCapture_assignValues privacy (sensitiveValues ready.attributes)
        have first := seal_eq privacy ready sequence session
          ((extends_assignValues _ _).trans after)
          fun value inside => short value (List.mem_append_left _ inside)
        have others := ih
          (privacy.assignValues (sensitiveValues ready.attributes))
          (by rw [same.session]; exact after)
          (by
            rw [same.session]
            exact fun value inside =>
              short value (List.mem_append_right _ inside))
        rw [same.session] at others
        simp only [CapturePrivacy.sealAll, first, others, List.map_cons,
          sealedWith, session, if_true]
      · have values : acceptedValues privacy.captureSession
            ((ready, sequence) :: rest) =
              acceptedValues privacy.captureSession rest := by
          simp [acceptedValues, session]
        rw [values] at after short ⊢
        have others := ih privacy after short
        simp only [CapturePrivacy.sealAll, CapturePrivacy.seal, ne_eq,
          session, not_false_eq_true, if_true, others, List.map_cons,
          sealedWith, if_false]

/-! ## The answers of the last table -/

/-- The keyed hash tells the values apart. -/
def HashApart (key : List UInt8) (values : List SensitiveValue) : Prop :=
  ∀ first ∈ values, ∀ second ∈ values,
    CapturePrivacy.keyedHash key first.1 first.2 =
      CapturePrivacy.keyedHash key second.1 second.2 → first = second

theorem HashApart.digestKey_eq {key : List UInt8}
    {values : List SensitiveValue} (apart : HashApart key values)
    {first second : SensitiveValue} (one : first ∈ values) (other : second ∈ values)
    (equal : (digestKey key first).2 = (digestKey key second).2) :
    first = second :=
  apart first one second other equal

theorem HashApart.digestsApart {key : List UInt8}
    {values : List SensitiveValue} (apart : HashApart key values) :
    DigestsApart (values.map (digestKey key)) := by
  intro first one second other equal
  obtain ⟨value, inside, rfl⟩ := List.mem_map.mp one
  obtain ⟨another, member, rfl⟩ := List.mem_map.mp other
  rw [apart.digestKey_eq inside member equal]

/-- A capture after some values came up. -/
def lastTable (key session : List UInt8) (limit : Nat)
    (values : List SensitiveValue) : CapturePrivacy :=
  (CapturePrivacy.fromMaterialWithLimit key session limit).assignValues values

section Answers

variable {key : List UInt8} (session : List UInt8) {limit : Nat}
  {values : List SensitiveValue}

theorem lastTable_holds (countable : limit < 2 ^ 32) (apart : HashApart key values) :
    TableHolds (lastTable key session limit values)
      ((values.eraseDups.map (digestKey key)).take limit) := by
  have holds := tableHolds_run countable key session apart.digestsApart
  rw [eraseDups_map] at holds
  · exact holds
  · intro first one second other equal
    exact apart.digestKey_eq one other (congrArg Prod.snd equal)

theorem lastTable_same (key session : List UInt8) (limit : Nat) (values : List SensitiveValue) :
    (lastTable key session limit values).key = key ∧
      (lastTable key session limit values).maxTrackedPseudonyms = limit := by
  have same := sameCapture_assignValues
    (CapturePrivacy.fromMaterialWithLimit key session limit) values
  exact ⟨same.key, same.limit⟩

/-- How a value that came up is shown, and its number. -/
theorem lastTable_answer (countable : limit < 2 ^ 32)
    (apart : HashApart key values) {before after : List SensitiveValue}
    {value : SensitiveValue} (split : values.eraseDups = before ++ value :: after) :
    (∃ len, ShownBy (lastTable key session limit values)
        (digestKey key value) len) ∧
      ((lastTable key session limit values).answers value).ordinal.map
          UInt32.toNat =
        if before.length < limit then
          some (before.countP (fun other => other.1 = value.1) + 1)
        else none := by
  have holds := lastTable_holds session countable apart
  have same := lastTable_same key session limit values
  have known : (lastTable key session limit values).answers value =
      ((lastTable key session limit values).assignDigest
        (digestKey key value).1 (digestKey key value).2).2 := by
    rw [CapturePrivacy.answers, assign_eq, same.1]
  by_cases early : before.length < limit
  · have tracked : (values.eraseDups.map (digestKey key)).take limit =
        before.map (digestKey key) ++ digestKey key value ::
          (after.map (digestKey key)).take (limit - before.length - 1) := by
      rw [split, List.map_append, List.map_cons, List.take_append,
        List.length_map, List.take_of_length_le (by simp; omega),
        List.take_cons (by omega)]
    obtain ⟨shown, ordinal⟩ := holds.answer_tracked tracked
    refine ⟨shown, ?_⟩
    rw [known, ordinal, if_pos early, List.countP_map]
    rfl
  · have fresh : digestKey key value ∉
        (values.eraseDups.map (digestKey key)).take limit := by
      rw [split, List.map_append, List.take_append_of_le_length
        (by rw [List.length_map]; omega)]
      intro inside
      obtain ⟨other, member, equal⟩ :=
        List.mem_map.mp (List.mem_of_mem_take inside)
      have one : other ∈ values := List.mem_eraseDups.mp (by
        rw [split]
        exact List.mem_append_left _ member)
      have two : value ∈ values := List.mem_eraseDups.mp (by
        rw [split]
        simp)
      have found : other = value :=
        apart.digestKey_eq one two (congrArg Prod.snd equal)
      have nodup := nodup_eraseDups values
      rw [split, List.nodup_append] at nodup
      exact nodup.2.2 other member value (by simp) found
    have full : (lastTable key session limit values).maxTrackedPseudonyms ≤
        ((values.eraseDups.map (digestKey key)).take limit).length := by
      rw [same.2, List.length_take, List.length_map, split, List.length_append]
      omega
    obtain ⟨shown, ordinal⟩ := holds.answer_untracked fresh full
    exact ⟨⟨32, shown⟩, by rw [known, ordinal, if_neg early]; rfl⟩

theorem lastTable_shown (countable : limit < 2 ^ 32)
    (apart : HashApart key values) {value : SensitiveValue} (inside : value ∈ values) :
    ∃ len, ShownBy (lastTable key session limit values)
      (digestKey key value) len := by
  obtain ⟨before, after, split⟩ :=
    List.append_of_mem (List.mem_eraseDups.mpr inside)
  exact (lastTable_answer session countable apart split).1

theorem lastTable_short (countable : limit < 2 ^ 32) (apart : HashApart key values) :
    ShortAnswers (lastTable key session limit values).answers values := by
  intro value inside
  obtain ⟨len, shown⟩ := lastTable_shown session countable apart inside
  refine ⟨(digestKey key value).2.val.take len, ?_, ?_⟩
  · rw [List.length_take]
    exact Nat.le_trans (Nat.min_le_left _ _) shown.short
  · rw [CapturePrivacy.answers, assign_eq, (lastTable_same ..).1]
    exact shown.rendered

theorem lastTable_distinct (countable : limit < 2 ^ 32)
    (apart : HashApart key values) {first second : SensitiveValue}
    (one : first ∈ values) (other : second ∈ values)
    (equal : ((lastTable key session limit values).answers first).rendered =
      ((lastTable key session limit values).answers second).rendered) :
    first = second := by
  obtain ⟨len, shown⟩ := lastTable_shown session countable apart one
  obtain ⟨otherLen, otherShown⟩ :=
    lastTable_shown session countable apart other
  rw [CapturePrivacy.answers, CapturePrivacy.answers, assign_eq, assign_eq,
    (lastTable_same ..).1] at equal
  have keys := shown.key_eq otherShown (fun digests => by
    rw [apart.digestKey_eq one other digests]) equal
  exact apart.digestKey_eq one other (congrArg Prod.snd keys)

end Answers

end Ratspeak.Activity
