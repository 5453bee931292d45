import Ratspeak.Activity.MaskingRuns

/-!
# Masking tells only what is equal

Two sequences of drafts that differ in raw values only, and in which the same
values are equal, are masked and copied to the same events but for the names
of the pseudonyms.
-/

namespace Ratspeak.Activity

open Library

/-! ## Drafts that differ in raw values -/

/-- The values differ at most in what is raw. -/
inductive AlikeValue : DraftValue → DraftValue → Prop where
  | exact (value : ExactValue) : AlikeValue (.exact value) (.exact value)
  | operationalCode (code : String) :
      AlikeValue (.operationalCode code) (.operationalCode code)
  | protocolIdentifier (kind : IdentifierKind) (raw other : List UInt8) :
      AlikeValue (.protocolIdentifier kind raw) (.protocolIdentifier kind other)
  | sensitiveEndpoint (endpointClass : EndpointClass) (raw other : String) :
      AlikeValue (.sensitiveEndpoint endpointClass raw) (.sensitiveEndpoint endpointClass other)
  | opaqueLocalReference (action : NavigationAction)
      (raw other : List UInt8) :
      AlikeValue (.opaqueLocalReference action raw) (.opaqueLocalReference action other)

def AlikeAttribute (first second : DraftAttribute) : Prop :=
  first.key = second.key ∧ AlikeValue first.value second.value

/-- The drafts, with their sequence numbers, differ at most in raw values. -/
structure AlikeDraft (first second : ReadyDraft × UInt64) : Prop where
  sequence : first.2 = second.2
  kind : first.1.kind = second.1.kind
  severity : first.1.severity = second.1.severity
  direction : first.1.direction = second.1.direction
  outcome : first.1.outcome = second.1.outcome
  timestampUnixMs : first.1.timestampUnixMs = second.1.timestampUnixMs
  elapsedMs : first.1.elapsedMs = second.1.elapsedMs
  attributes : List.Forall₂ AlikeAttribute first.1.attributes second.1.attributes
  correlationId : first.1.correlationId = second.1.correlationId
  parentSequence : first.1.parentSequence = second.1.parentSequence
  context : first.1.context = second.1.context
  count : first.1.count = second.1.count
  firstTimestampMs : first.1.firstTimestampMs = second.1.firstTimestampMs
  lastTimestampMs : first.1.lastTimestampMs = second.1.lastTimestampMs

/-! ## Renaming pseudonyms -/

def ActivityAttributeV1.rename (relabel : String → String)
    (shown : ActivityAttributeV1) : ActivityAttributeV1 :=
  match shown.value with
  | .identifier value =>
      ⟨shown.key, .identifier { value with pseudonym := relabel value.pseudonym }⟩
  | _ => shown

def SafeCopyAttributeV1.rename (relabel : String → String)
    (copied : SafeCopyAttributeV1) : SafeCopyAttributeV1 :=
  match copied.value with
  | .identifier kind pseudonym => ⟨copied.key, .identifier kind (relabel pseudonym)⟩
  | .endpoint endpointClass pseudonym =>
      ⟨copied.key, .endpoint endpointClass (relabel pseudonym)⟩
  | _ => copied

/-- What may be seen of a stored event. -/
abbrev Seen := ActivityEventV1 × Except SafeCopyError SafeCopyEventV1

def seen (result : Except ActivityRejectReason StoredEventV1) :
    Except ActivityRejectReason Seen :=
  match result with
  | .ok stored => .ok (stored.masked, stored.safeCopy)
  | .error reason => .error reason

def Seen.rename (relabel : String → String) (shown : Seen) : Seen :=
  ({ shown.1 with
      attributes := shown.1.attributes.map (.rename relabel) },
    match shown.2 with
    | .ok copy => .ok { copy with attributes := copy.attributes.map (.rename relabel) }
    | .error error => .error error)

def renameSeen (relabel : String → String) (result : Except ActivityRejectReason Seen) :
    Except ActivityRejectReason Seen :=
  match result with
  | .ok shown => .ok (Seen.rename relabel shown)
  | .error reason => .error reason

/-! ## Alike drafts are masked alike -/

/-- The answers to two values are the same but for the renaming. -/
def Corresponds (relabel : String → String) (answers others : Answers)
    (pair : SensitiveValue × SensitiveValue) : Prop :=
  (others pair.2).rendered = relabel (answers pair.1).rendered ∧
    (others pair.2).ordinal = (answers pair.1).ordinal

section Alike

variable {relabel : String → String} {answers others : Answers}

theorem AlikeAttribute.sensitive {first second : DraftAttribute}
    (alike : AlikeAttribute first second) :
    (first.sensitive = none ∧ second.sensitive = none) ∨
      ∃ domain value other, first.sensitive = some (domain, value) ∧
        second.sensitive = some (domain, other) := by
  obtain ⟨key, value⟩ := first
  obtain ⟨otherKey, otherValue⟩ := second
  obtain ⟨_, alikeValue⟩ := alike
  dsimp only at alikeValue
  cases alikeValue with
  | exact value => exact Or.inl ⟨rfl, rfl⟩
  | operationalCode code => exact Or.inl ⟨rfl, rfl⟩
  | protocolIdentifier kind raw other =>
      exact Or.inr ⟨.protocol kind, raw, other, rfl, rfl⟩
  | sensitiveEndpoint endpointClass raw other =>
      exact Or.inr ⟨.endpoint endpointClass, _, _, rfl, rfl⟩
  | opaqueLocalReference action raw other => exact Or.inl ⟨rfl, rfl⟩

/-- Values at the same places have the same domain. -/
theorem sensitiveValues_alike {first second : List DraftAttribute}
    (alike : List.Forall₂ AlikeAttribute first second) :
    List.Forall₂ (fun value other => value.1 = other.1)
      (sensitiveValues first) (sensitiveValues second) := by
  induction alike with
  | nil => exact .nil
  | cons head _ ih =>
      unfold sensitiveValues at ih ⊢
      rcases head.sensitive with ⟨one, other⟩ | ⟨_, _, _, one, other⟩
      · rw [List.filterMap_cons_none one, List.filterMap_cons_none other]
        exact ih
      · rw [List.filterMap_cons_some one, List.filterMap_cons_some other]
        exact .cons rfl ih

theorem attributes_renamed {first second : List DraftAttribute}
    (alike : List.Forall₂ AlikeAttribute first second)
    (corresponds : ∀ pair ∈ (sensitiveValues first).zip
      (sensitiveValues second), Corresponds relabel answers others pair) :
    second.filterMap (maskedWith others) =
        (first.filterMap (maskedWith answers)).map (.rename relabel) ∧
      second.filterMap (copiedWith others) =
        (first.filterMap (copiedWith answers)).map (.rename relabel) := by
  induction alike with
  | nil => exact ⟨rfl, rfl⟩
  | cons head _ ih =>
      rename_i one two firsts seconds _
      obtain ⟨key, value⟩ := one
      obtain ⟨otherKey, otherValue⟩ := two
      obtain ⟨same, alikeValue⟩ := head
      dsimp only at same alikeValue
      subst same
      cases alikeValue with
      | exact value =>
          obtain ⟨masked, copied⟩ := ih corresponds
          cases value <;> exact ⟨congrArg _ masked, congrArg _ copied⟩
      | operationalCode code =>
          obtain ⟨masked, copied⟩ := ih corresponds
          exact ⟨congrArg _ masked, congrArg _ copied⟩
      | protocolIdentifier kind raw other =>
          obtain ⟨masked, copied⟩ := ih
            fun pair inside => corresponds pair (List.mem_cons_of_mem _ inside)
          obtain ⟨rendered, ordinal⟩ := corresponds
            ((.protocol kind, raw), (.protocol kind, other))
            (List.mem_cons_self ..)
          dsimp only at rendered ordinal
          simp [maskedWith, copiedWith, rendered, ordinal, masked, copied,
            ActivityAttributeV1.rename, SafeCopyAttributeV1.rename]
      | sensitiveEndpoint endpointClass raw other =>
          obtain ⟨masked, copied⟩ := ih
            fun pair inside => corresponds pair (List.mem_cons_of_mem _ inside)
          obtain ⟨rendered, ordinal⟩ := corresponds
            ((.endpoint endpointClass, CapturePrivacy.endpointBytes raw),
              (.endpoint endpointClass, CapturePrivacy.endpointBytes other))
            (List.mem_cons_self ..)
          dsimp only at rendered ordinal
          simp [maskedWith, copiedWith, rendered, masked, copied,
            ActivityAttributeV1.rename, SafeCopyAttributeV1.rename]
      | opaqueLocalReference action raw other => exact ih corresponds

/-- The results for alike drafts are the same but for the renaming. -/
theorem sealedWith_renamed (session : String)
    {first second : ReadyDraft × UInt64} (alike : AlikeDraft first second)
    (corresponds : first.1.context.captureSession = session →
      ∀ pair ∈ (sensitiveValues first.1.attributes).zip
        (sensitiveValues second.1.attributes),
        Corresponds relabel answers others pair) :
    seen (sealedWith session others second) =
      renameSeen relabel (seen (sealedWith session answers first)) := by
  unfold sealedWith
  by_cases accepted : first.1.context.captureSession = session
  · have other : second.1.context.captureSession = session := by
      rw [← alike.context]
      exact accepted
    obtain ⟨masked, copied⟩ :=
      attributes_renamed alike.attributes (corresponds accepted)
    rw [if_pos accepted, if_pos other]
    simp only [seen, renameSeen, Seen.rename, StoredEventV1.masked, storedWith_safeCopy]
    simp only [storedWith, CapturePrivacy.wireEvent, masked, copied,
      alike.sequence, alike.kind, alike.severity, alike.direction,
      alike.outcome, alike.timestampUnixMs, alike.elapsedMs,
      alike.correlationId, alike.parentSequence, alike.context, alike.count,
      alike.firstTimestampMs, alike.lastTimestampMs]
  · have other : ¬second.1.context.captureSession = session := by
      rw [← alike.context]
      exact accepted
    rw [if_neg accepted, if_neg other]
    rfl

end Alike

/-! ## The same pattern gives the same answers -/

section Patterns

variable {first second : List SensitiveValue} {answers others : Answers}

/-- The answers number the values in the order in which they come up. -/
def Numbered (limit : Nat) (values : List SensitiveValue) (answers : Answers) : Prop :=
  ∀ before value after, values.eraseDups = before ++ value :: after →
    (answers value).ordinal.map UInt32.toNat =
      if before.length < limit then
        some (before.countP (fun other => other.1 = value.1) + 1)
      else none

/-- The answers keep different values apart. -/
def Distinct (values : List SensitiveValue) (answers : Answers) : Prop :=
  ∀ value ∈ values, ∀ other ∈ values,
    (answers value).rendered = (answers other).rendered → value = other

theorem ordinal_alike {limit : Nat} (pattern : SamePattern first second)
    (domains : ∀ pair ∈ first.zip second, pair.1.1 = pair.2.1)
    (numbered : Numbered limit first answers) (otherNumbered : Numbered limit second others)
    {pair : SensitiveValue × SensitiveValue} (inside : pair ∈ first.zip second) :
    (others pair.2).ordinal = (answers pair.1).ordinal := by
  obtain ⟨firsts, seconds⟩ := pattern.eraseDups
  obtain ⟨before, after, split⟩ :=
    List.append_of_mem (List.mem_eraseDups.mpr inside)
  rw [split, List.map_append, List.map_cons] at firsts seconds
  have one := numbered _ _ _ firsts
  have other := otherNumbered _ _ _ seconds
  have counts : (before.map Prod.snd).countP
        (fun known => known.1 = pair.2.1) =
      (before.map Prod.fst).countP (fun known => known.1 = pair.1.1) := by
    rw [List.countP_map, List.countP_map]
    refine List.countP_congr fun known member => ?_
    have same : known.1.1 = known.2.1 := by
      refine domains known (List.mem_eraseDups.mp ?_)
      rw [split]
      exact List.mem_append_left _ member
    simp [← same, ← domains pair inside]
  rw [List.length_map] at one other
  rw [counts, ← one] at other
  exact Option.map_injective (fun _ _ => UInt32.toNat_inj.mp) other

/-- The pseudonym of the value at the same place. -/
def relabelled (pairs : List (SensitiveValue × SensitiveValue))
    (answers others : Answers) (text : String) : String :=
  match pairs.find? fun pair => (answers pair.1).rendered = text with
  | some pair => (others pair.2).rendered
  | none => text

theorem relabelled_eq (pattern : SamePattern first second)
    (distinct : Distinct first answers) {pair : SensitiveValue × SensitiveValue}
    (inside : pair ∈ first.zip second) :
    relabelled (first.zip second) answers others (answers pair.1).rendered =
      (others pair.2).rendered := by
  unfold relabelled
  cases found : (first.zip second).find? fun other =>
      (answers other.1).rendered = (answers pair.1).rendered with
  | none =>
      have never := List.find?_eq_none.mp found pair inside
      simp at never
  | some other =>
      have member := List.mem_of_find?_eq_some found
      have equal : (answers other.1).rendered = (answers pair.1).rendered := by
        simpa using List.find?_some found
      have same : other.1 = pair.1 :=
        distinct other.1 (List.of_mem_zip member).1 pair.1 (List.of_mem_zip inside).1 equal
      have values : other.2 = pair.2 :=
        (pattern.2 other member pair inside).mp same
      dsimp only
      rw [values]

/-- Different pseudonyms get different names. -/
theorem relabelled_injective (pattern : SamePattern first second)
    (distinct : Distinct first answers)
    (otherDistinct : Distinct second others) {value other : SensitiveValue}
    (one : value ∈ first) (two : other ∈ first)
    (equal : relabelled (first.zip second) answers others
        (answers value).rendered =
      relabelled (first.zip second) answers others (answers other).rendered) :
    (answers value).rendered = (answers other).rendered := by
  have paired {found : SensitiveValue} (inside : found ∈ first) :
      ∃ pair ∈ first.zip second, pair.1 = found := by
    have whole : (first.zip second).map Prod.fst = first :=
      List.map_fst_zip (Nat.le_of_eq pattern.1)
    rw [← whole] at inside
    exact List.mem_map.mp inside
  obtain ⟨pair, member, rfl⟩ := paired one
  obtain ⟨another, belongs, rfl⟩ := paired two
  rw [relabelled_eq pattern distinct member, relabelled_eq pattern distinct belongs] at equal
  have seconds := otherDistinct pair.2 (List.of_mem_zip member).2
    another.2 (List.of_mem_zip belongs).2 equal
  rw [(pattern.2 pair member another belongs).mpr seconds]

end Patterns

/-! ## Runs -/

private theorem mem_zip_append {first second : List SensitiveValue}
    {firsts seconds : List SensitiveValue} (length : first.length = second.length)
    {pair : SensitiveValue × SensitiveValue} :
    pair ∈ (first ++ firsts).zip (second ++ seconds) ↔
      pair ∈ first.zip second ∨ pair ∈ firsts.zip seconds := by
  rw [List.zip_append length, List.mem_append]

theorem acceptedValues_cons (session : String)
    (entry : ReadyDraft × UInt64) (rest : List (ReadyDraft × UInt64)) :
    acceptedValues session (entry :: rest) =
      (if entry.1.context.captureSession = session then
        sensitiveValues entry.1.attributes
      else []) ++ acceptedValues session rest :=
  rfl

/-- Values at the same places of alike drafts have the same domain. -/
theorem acceptedValues_alike (session : String) {first second : List (ReadyDraft × UInt64)}
    (alike : List.Forall₂ AlikeDraft first second) :
    List.Forall₂ (fun value other => value.1 = other.1)
      (acceptedValues session first) (acceptedValues session second) := by
  induction alike with
  | nil => exact .nil
  | cons head _ ih =>
      rw [acceptedValues_cons, acceptedValues_cons, ← head.context]
      refine List.rel_append ?_ ih
      split
      · exact sensitiveValues_alike head.attributes
      · exact .nil

theorem sealedWith_alike (session : String) {relabel : String → String}
    {answers others : Answers} {first second : List (ReadyDraft × UInt64)}
    (alike : List.Forall₂ AlikeDraft first second)
    (corresponds : ∀ pair ∈ (acceptedValues session first).zip
      (acceptedValues session second),
      Corresponds relabel answers others pair) :
    second.map (fun entry => seen (sealedWith session others entry)) =
      first.map fun entry =>
        renameSeen relabel (seen (sealedWith session answers entry)) := by
  induction alike with
  | nil => rfl
  | cons head tail ih =>
      rename_i one two firsts seconds
      rw [acceptedValues_cons, acceptedValues_cons, ← head.context] at corresponds
      have length := (sensitiveValues_alike head.attributes).length_eq
      rw [List.map_cons, List.map_cons]
      by_cases accepted : one.1.context.captureSession = session
      · rw [if_pos accepted, if_pos accepted] at corresponds
        rw [sealedWith_renamed session head fun _ pair inside =>
            corresponds pair ((mem_zip_append length).mpr (Or.inl inside)),
          ih fun pair inside =>
            corresponds pair ((mem_zip_append length).mpr (Or.inr inside))]
      · rw [if_neg accepted, if_neg accepted] at corresponds
        rw [sealedWith_renamed session head
            fun never => absurd never accepted,
          ih corresponds]

end Ratspeak.Activity
