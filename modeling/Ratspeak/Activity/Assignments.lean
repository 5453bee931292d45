import Ratspeak.Activity.Pseudonym
import Ratspeak.Library.Firsts
import Ratspeak.Library.Runs

/-!
# The table of pseudonyms

The table holds the first values that came up, as many as fit.  Each of them
has its number within its domain and a prefix that no other one has; what
comes up later is shown by its whole digest.  Assigning a value again, at any
later time, gives what it gave at first.
-/

namespace Ratspeak.Activity

open Library

/-! ## What a table holds -/

/-- The digests of keys tell the keys apart. -/
def DigestsApart (keys : List DigestKey) : Prop :=
  ∀ first ∈ keys, ∀ second ∈ keys, first.2 = second.2 → first = second

theorem DigestsApart.mono {some all : List DigestKey}
    (apart : DigestsApart all) (inside : ∀ key ∈ some, key ∈ all) :
    DigestsApart some :=
  fun first one second other =>
    apart first (inside first one) second (inside second other)

/-- The table holds the keys, in the order in which they came up. -/
structure TableHolds (privacy : CapturePrivacy) (tracked : List DigestKey) :
    Prop where
  known : ∀ key, (privacy.byDigest.lookup key).isSome = true ↔ key ∈ tracked
  size : privacy.byDigest.keys.length = tracked.length
  limited : tracked.length ≤ privacy.maxTrackedPseudonyms
  numbered : ∀ before key after, tracked = before ++ key :: after →
    ∃ pseudonym, privacy.byDigest.lookup key = some pseudonym ∧
      pseudonym.ordinal.toNat = before.countP (fun other => other.1 = key.1) + 1
  next : ∀ domain : PseudonymDomain,
    (privacy.nextOrdinal domain.ordinalSlot).toNat =
      tracked.countP fun other => other.1 = domain
  shown : ∀ key pseudonym, privacy.byDigest.lookup key = some pseudonym →
    privacy.byRendered.lookup pseudonym.rendered = some key ∧
      ∃ len ≤ 32, pseudonym.rendered = .new key.2 len
  owned : ∀ rendered key, privacy.byRendered.lookup rendered = some key →
    ∃ pseudonym, privacy.byDigest.lookup key = some pseudonym ∧ pseudonym.rendered = rendered
  renderedSize : privacy.byRendered.keys.length ≤ tracked.length

theorem tableHolds_new (key session : List UInt8) (limit : Nat) :
    TableHolds (.fromMaterialWithLimit key session limit) [] where
  known := fun key => by simp [CapturePrivacy.fromMaterialWithLimit]
  size := rfl
  limited := Nat.zero_le _
  numbered := fun before key after split => by simp at split
  next := fun _ => rfl
  shown := fun key pseudonym found => by
    simp [CapturePrivacy.fromMaterialWithLimit] at found
  owned := fun rendered key found => by
    simp [CapturePrivacy.fromMaterialWithLimit] at found
  renderedSize := Nat.le_refl _

/-- What is tracked after one more key came up. -/
def trackedAfter (limit : Nat) (tracked : List DigestKey) (key : DigestKey) : List DigestKey :=
  if key ∈ tracked ∨ limit ≤ tracked.length then tracked
  else tracked ++ [key]

/-! ## Prefixes -/

theorem RenderedPrefix.new_injective {first second : Digest}
    {len other : Nat} (short : len ≤ 32) (shortOther : other ≤ 32)
    (equal : first.val.take len = second.val.take other) :
    RenderedPrefix.new first len = RenderedPrefix.new second other := by
  have lengths := congrArg List.length equal
  rw [List.length_take, List.length_take, first.property, second.property,
    Nat.min_eq_left short, Nat.min_eq_left shortOther] at lengths
  subst lengths
  rw [RenderedPrefix.new, RenderedPrefix.new, equal]

theorem RenderedPrefix.render_new {digest : Digest} {len : Nat} (short : len ≤ 32) :
    (RenderedPrefix.new digest len).render =
      hexEncode (digest.val.take len) := by
  have length : (digest.val.take len).length = len := by
    rw [List.length_take, digest.property, Nat.min_eq_left short]
  rw [RenderedPrefix.render, RenderedPrefix.new]
  dsimp only
  rw [List.take_append_of_le_length (by rw [length]),
    List.take_of_length_le (by rw [length])]

/-- The prefix that is found is one of the digest, and nobody else has it. -/
theorem freePrefix_spec {byRendered : FiniteMap RenderedPrefix DigestKey}
    {key : DigestKey} (unowned : ∀ rendered, byRendered.lookup rendered ≠ some key)
    (whole : byRendered.lookup (.new key.2 32) = none) (room : Nat) :
    ∃ len ≤ 32,
      CapturePrivacy.freePrefix byRendered key room = .new key.2 len ∧
        byRendered.lookup (.new key.2 len) = none := by
  induction room with
  | zero => exact ⟨32, Nat.le_refl _, rfl, whole⟩
  | succ room ih =>
      simp only [CapturePrivacy.freePrefix]
      split
      · rename_i free
        exact ⟨32 - (room + 1), Nat.sub_le _ _, rfl, free⟩
      · rename_i existing taken
        split
        · rename_i same
          rw [same] at taken
          exact absurd taken (unowned _)
        · exact ih

/-! ## Ordinals -/

private theorem IdentifierKind.domainId_injective {first second : IdentifierKind}
    (equal : first.domainId.toNat - 1 = second.domainId.toNat - 1) :
    first = second := by
  cases first <;> cases second <;> first | rfl | exact absurd equal (by decide)

private theorem EndpointClass.domainId_injective {first second : EndpointClass}
    (equal : first.domainId.toNat = second.domainId.toNat) :
    first = second := by
  cases first <;> cases second <;> first | rfl | exact absurd equal (by decide)

/-- Every domain counts in a slot of its own. -/
theorem PseudonymDomain.ordinalSlot_injective {first second : PseudonymDomain}
    (equal : first.ordinalSlot = second.ordinalSlot) : first = second := by
  have low (kind : IdentifierKind) : kind.domainId.toNat - 1 < 8 := by
    cases kind <;> decide
  have positive (endpointClass : EndpointClass) :
      0 < endpointClass.domainId.toNat := by
    cases endpointClass <;> decide
  cases first with
  | protocol kind =>
      cases second with
      | protocol other => rw [IdentifierKind.domainId_injective equal]
      | endpoint other =>
          have small := low kind
          have large := positive other
          simp only [ordinalSlot] at equal
          omega
  | endpoint endpointClass =>
      cases second with
      | protocol other =>
          have small := low other
          have large := positive endpointClass
          simp only [ordinalSlot] at equal
          omega
      | endpoint other =>
          have left := positive endpointClass
          have right := positive other
          simp only [ordinalSlot] at equal
          have same : endpointClass = other :=
            EndpointClass.domainId_injective (by omega)
          rw [same]

private theorem toNat_saturatingSucc {number : UInt32} (room : number.toNat < 2 ^ 32 - 1) :
    (saturatingSucc number).toNat = number.toNat + 1 := by
  rw [saturatingSucc, if_neg (by omega), UInt32.toNat_add]
  exact Nat.mod_eq_of_lt (by change number.toNat + 1 < _; omega)

/-! ## One assignment -/

theorem TableHolds.lookup_eq_none {privacy : CapturePrivacy}
    {tracked : List DigestKey} (holds : TableHolds privacy tracked)
    {key : DigestKey} (fresh : key ∉ tracked) :
    privacy.byDigest.lookup key = none := by
  by_contra known
  exact fresh ((holds.known key).mp (Option.ne_none_iff_isSome.mp known))

/-- Assigning a tracked key, or another one to a full table, changes
nothing. -/
theorem assignDigest_kept {privacy : CapturePrivacy}
    {tracked : List DigestKey} (holds : TableHolds privacy tracked) {key : DigestKey}
    (kept : key ∈ tracked ∨ privacy.maxTrackedPseudonyms ≤ tracked.length) :
    (privacy.assignDigest key.1 key.2).1 = privacy := by
  unfold CapturePrivacy.assignDigest
  split
  · rfl
  · rename_i missing
    rcases kept with inside | full
    · have known := (holds.known key).mpr inside
      rw [missing] at known
      cases known
    · rw [if_pos (by rw [holds.size]; exact full)]

private theorem split_concat {tracked before after : List DigestKey}
    {key added : DigestKey} (split : tracked ++ [added] = before ++ key :: after) :
    (tracked = before ∧ added = key) ∨
      ∃ rest, tracked = before ++ key :: rest := by
  rcases List.eq_nil_or_concat after with rfl | ⟨rest, last, rfl⟩
  · obtain ⟨same, equal⟩ := List.append_inj' split rfl
    exact Or.inl ⟨same, List.head_eq_of_cons_eq equal⟩
  · have regrouped : tracked ++ [added] =
        (before ++ key :: rest) ++ [last] := by
      rw [split, List.concat_eq_append, List.append_assoc, List.cons_append]
    exact Or.inr ⟨rest, (List.append_inj' regrouped rfl).1⟩

/-- A new key comes into a table with room. -/
theorem TableHolds.track {privacy : CapturePrivacy}
    {tracked : List DigestKey} (holds : TableHolds privacy tracked)
    {key : DigestKey} (fresh : key ∉ tracked)
    (room : tracked.length < privacy.maxTrackedPseudonyms)
    (countable : privacy.maxTrackedPseudonyms < 2 ^ 32)
    (apart : DigestsApart (tracked ++ [key])) :
    TableHolds (privacy.assignDigest key.1 key.2).1 (tracked ++ [key]) := by
  have missing : privacy.byDigest.lookup key = none :=
    holds.lookup_eq_none fresh
  have unowned : ∀ rendered,
      privacy.byRendered.lookup rendered ≠ some key := by
    intro rendered found
    obtain ⟨pseudonym, known, _⟩ := holds.owned rendered key found
    rw [missing] at known
    cases known
  have whole : privacy.byRendered.lookup (.new key.2 32) = none := by
    by_contra taken
    obtain ⟨other, found⟩ := Option.ne_none_iff_exists'.mp taken
    obtain ⟨pseudonym, known, same⟩ := holds.owned _ other found
    obtain ⟨_, len, short, shape⟩ := holds.shown other pseudonym known
    rw [shape] at same
    have lengths : len = 32 := congrArg RenderedPrefix.len same
    subst lengths
    have contents := congrArg RenderedPrefix.bytes same
    simp only [RenderedPrefix.new, List.append_cancel_right_eq] at contents
    rw [List.take_of_length_le (by rw [other.2.property]),
      List.take_of_length_le (by rw [key.2.property])] at contents
    have inside : other ∈ tracked :=
      (holds.known other).mp (by rw [known]; rfl)
    have equal : other = key :=
      apart other (by simp [inside]) key (by simp) (Subtype.ext contents)
    exact fresh (equal ▸ inside)
  obtain ⟨len, short, shape, free⟩ := freePrefix_spec unowned whole (32 - initialPseudonymBytes)
  have count : (privacy.nextOrdinal key.1.ordinalSlot).toNat =
      tracked.countP fun other => other.1 = key.1 := holds.next key.1
  have few : (tracked.countP fun other => other.1 = key.1) ≤
      tracked.length := List.countP_le_length
  have ordinal : (saturatingSucc
      (privacy.nextOrdinal key.1.ordinalSlot)).toNat =
      (tracked.countP fun other => other.1 = key.1) + 1 := by
    rw [toNat_saturatingSucc (by omega), count]
  unfold CapturePrivacy.assignDigest
  rw [missing]
  dsimp only
  rw [if_neg (by rw [holds.size]; omega), shape, Prod.mk.eta]
  refine
    { known := ?_
      size := ?_
      limited := ?_
      numbered := ?_
      next := ?_
      shown := ?_
      owned := ?_
      renderedSize := ?_ }
  · intro other
    simp only [FiniteMap.lookup_insert_ite, List.mem_append, List.mem_singleton]
    by_cases same : other = key
    · simp [same]
    · simp only [same, if_false, or_false]
      exact holds.known other
  · dsimp only
    rw [FiniteMap.length_keys_insert_of_new _ missing, holds.size, List.length_append]
    rfl
  · rw [List.length_append]
    exact room
  · intro before other after split
    dsimp only
    rcases split_concat split with ⟨rfl, rfl⟩ | ⟨rest, old⟩
    · refine ⟨_, by rw [FiniteMap.lookup_insert_ite, if_pos rfl], ordinal⟩
    · obtain ⟨pseudonym, found, number⟩ :=
        holds.numbered before other rest old
      have differs : other ≠ key := by
        rintro rfl
        exact fresh (by rw [old]; simp)
      refine ⟨pseudonym, ?_, number⟩
      rw [FiniteMap.lookup_insert_ite, if_neg differs, found]
  · intro domain
    dsimp only
    rw [List.countP_append]
    by_cases same : domain = key.1
    · subst same
      rw [Function.update_self, ordinal]
      simp
    · have slots : domain.ordinalSlot ≠ key.1.ordinalSlot := by
        intro equal
        exact same (PseudonymDomain.ordinalSlot_injective equal)
      have other : ¬key.1 = domain := fun equal => same equal.symm
      rw [Function.update_of_ne slots, holds.next domain]
      simp [other]
  · intro other pseudonym found
    dsimp only at found ⊢
    rw [FiniteMap.lookup_insert_ite] at found ⊢
    by_cases same : other = key
    · rw [if_pos same] at found
      cases found
      exact ⟨by rw [if_pos rfl, same], len, short, by rw [same]⟩
    · rw [if_neg same] at found
      obtain ⟨owner, shaped⟩ := holds.shown other pseudonym found
      have distinct : pseudonym.rendered ≠ .new key.2 len := by
        intro equal
        rw [equal, free] at owner
        cases owner
      exact ⟨by rw [if_neg distinct]; exact owner, shaped⟩
  · intro rendered other found
    dsimp only at found ⊢
    rw [FiniteMap.lookup_insert_ite] at found
    by_cases same : rendered = .new key.2 len
    · rw [if_pos same] at found
      cases found
      exact ⟨_, by rw [FiniteMap.lookup_insert_ite, if_pos rfl], same.symm⟩
    · rw [if_neg same] at found
      obtain ⟨pseudonym, known, equal⟩ := holds.owned rendered other found
      have differs : other ≠ key := by
        rintro rfl
        exact absurd found (unowned rendered)
      exact ⟨pseudonym,
        by rw [FiniteMap.lookup_insert_ite, if_neg differs]; exact known,
        equal⟩
  · have grown := FiniteMap.length_keys_insert (.new key.2 len) key
      privacy.byRendered
    have before := holds.renderedSize
    rw [List.length_append, List.length_singleton]
    dsimp only at grown ⊢
    omega

/-- What one more key does to the table. -/
theorem TableHolds.assign {privacy : CapturePrivacy}
    {tracked : List DigestKey} (holds : TableHolds privacy tracked)
    {key : DigestKey} (countable : privacy.maxTrackedPseudonyms < 2 ^ 32)
    (apart : DigestsApart (tracked ++ [key])) :
    TableHolds (privacy.assignDigest key.1 key.2).1
      (trackedAfter privacy.maxTrackedPseudonyms tracked key) := by
  unfold trackedAfter
  by_cases kept : key ∈ tracked ∨ privacy.maxTrackedPseudonyms ≤ tracked.length
  · rw [if_pos kept, assignDigest_kept holds kept]
    exact holds
  · rw [if_neg kept]
    obtain ⟨fresh, room⟩ := not_or.mp kept
    exact holds.track fresh (Nat.lt_of_not_le room) countable apart

/-! ## A run of assignments -/

/-- The key, the session and the limit stay. -/
structure SameCapture (before after : CapturePrivacy) : Prop where
  key : after.key = before.key
  session : after.captureSession = before.captureSession
  limit : after.maxTrackedPseudonyms = before.maxTrackedPseudonyms

theorem sameCapture_assignDigest (privacy : CapturePrivacy) (key : DigestKey) :
    SameCapture privacy (privacy.assignDigest key.1 key.2).1 := by
  unfold CapturePrivacy.assignDigest
  split
  · exact ⟨rfl, rfl, rfl⟩
  · split
    · exact ⟨rfl, rfl, rfl⟩
    · exact ⟨rfl, rfl, rfl⟩

/-- The table after some more keys came up. -/
def CapturePrivacy.assignKeys (privacy : CapturePrivacy)
    (keys : List DigestKey) : CapturePrivacy :=
  keys.foldl (fun before key => (before.assignDigest key.1 key.2).1) privacy

theorem assignKeys_concat (privacy : CapturePrivacy) (keys : List DigestKey) (key : DigestKey) :
    privacy.assignKeys (keys ++ [key]) =
      ((privacy.assignKeys keys).assignDigest key.1 key.2).1 := by
  simp [CapturePrivacy.assignKeys]

theorem sameCapture_assignKeys (privacy : CapturePrivacy) (keys : List DigestKey) :
    SameCapture privacy (privacy.assignKeys keys) := by
  induction keys using List.reverseRecOn with
  | nil => exact ⟨rfl, rfl, rfl⟩
  | append_singleton keys key ih =>
      rw [assignKeys_concat]
      have next := sameCapture_assignDigest (privacy.assignKeys keys) key
      exact ⟨next.key.trans ih.key,
        next.session.trans ih.session,
        next.limit.trans ih.limit⟩

/-- The keys that are tracked are the first that came up. -/
theorem trackedAfter_firsts (limit : Nat) (keys : List DigestKey) (key : DigestKey) :
    trackedAfter limit (keys.eraseDups.take limit) key =
      (keys ++ [key]).eraseDups.take limit := by
  have length : (keys.eraseDups.take limit).length =
      min limit keys.eraseDups.length := List.length_take
  unfold trackedAfter
  by_cases known : key ∈ keys
  · rw [eraseDups_concat_of_mem known, if_pos]
    by_cases full : limit ≤ keys.eraseDups.length
    · exact Or.inr (by omega)
    · rw [List.take_of_length_le (by omega)]
      exact Or.inl (List.mem_eraseDups.mpr known)
  · rw [eraseDups_concat_of_not_mem known]
    by_cases full : limit ≤ keys.eraseDups.length
    · rw [if_pos (Or.inr (by omega)), List.take_append_of_le_length full]
    · have whole : keys.eraseDups.take limit = keys.eraseDups :=
        List.take_of_length_le (by omega)
      have fresh : key ∉ keys.eraseDups :=
        fun inside => known (List.mem_eraseDups.mp inside)
      rw [whole, if_neg (by simp [fresh]; omega),
        List.take_of_length_le (by simp; omega)]

/-- A table holds the first keys that came up. -/
theorem tableHolds_run {limit : Nat} (countable : limit < 2 ^ 32)
    (key session : List UInt8) {keys : List DigestKey} (apart : DigestsApart keys) :
    TableHolds
      ((CapturePrivacy.fromMaterialWithLimit key session limit).assignKeys
        keys) (keys.eraseDups.take limit) := by
  induction keys using List.reverseRecOn with
  | nil =>
      rw [List.eraseDups_nil, List.take_nil]
      exact tableHolds_new key session limit
  | append_singleton keys last ih =>
      have earlier := ih (apart.mono fun other old => List.mem_append_left _ old)
      have same := sameCapture_assignKeys
        (CapturePrivacy.fromMaterialWithLimit key session limit) keys
      have limited : ((CapturePrivacy.fromMaterialWithLimit key session
          limit).assignKeys keys).maxTrackedPseudonyms = limit := same.limit
      have inside : ∀ other ∈ keys.eraseDups.take limit ++ [last],
          other ∈ keys ++ [last] := by
        intro other member
        rcases List.mem_append.mp member with old | new
        · exact List.mem_append_left _ (List.mem_eraseDups.mp (List.mem_of_mem_take old))
        · exact List.mem_append_right _ new
      have next := earlier.assign (by rw [limited]; exact countable)
        (apart.mono inside)
      rw [limited, trackedAfter_firsts] at next
      rw [assignKeys_concat]
      exact next

/-! ## Later assignments -/

/-- A later table says no less about the keys that it was asked for. -/
structure Extends (before after : CapturePrivacy) : Prop where
  same : SameCapture before after
  known : ∀ key pseudonym, before.byDigest.lookup key = some pseudonym →
    after.byDigest.lookup key = some pseudonym
  full : before.maxTrackedPseudonyms ≤ before.byDigest.keys.length →
    after.byDigest = before.byDigest

theorem Extends.refl (privacy : CapturePrivacy) : Extends privacy privacy :=
  ⟨⟨rfl, rfl, rfl⟩, fun _ _ found => found, fun _ => rfl⟩

theorem Extends.trans {first second third : CapturePrivacy}
    (one : Extends first second) (other : Extends second third) :
    Extends first third where
  same := ⟨other.same.key.trans one.same.key,
    other.same.session.trans one.same.session,
    other.same.limit.trans one.same.limit⟩
  known := fun key pseudonym found =>
    other.known key pseudonym (one.known key pseudonym found)
  full := by
    intro full
    have same := one.full full
    have still : second.maxTrackedPseudonyms ≤
        second.byDigest.keys.length := by
      rw [one.same.limit, same]
      exact full
    rw [other.full still, same]

theorem extends_assignDigest (privacy : CapturePrivacy) (key : DigestKey) :
    Extends privacy (privacy.assignDigest key.1 key.2).1 := by
  refine ⟨sameCapture_assignDigest privacy key, ?_, ?_⟩
  · intro other pseudonym found
    unfold CapturePrivacy.assignDigest
    split
    · exact found
    · rename_i missing
      split
      · exact found
      · have differs : other ≠ (key.1, key.2) := by
          intro equal
          rw [equal, missing] at found
          cases found
        dsimp only
        rw [FiniteMap.lookup_insert_ite, if_neg differs]
        exact found
  · intro full
    unfold CapturePrivacy.assignDigest
    split
    · rfl
    · rw [if_pos full]

/-- Asked again, a later table answers the same and stays as it is. -/
theorem assignDigest_again {privacy later : CapturePrivacy} {key : DigestKey}
    (after : Extends (privacy.assignDigest key.1 key.2).1 later) :
    later.assignDigest key.1 key.2 =
      (later, (privacy.assignDigest key.1 key.2).2) := by
  have limit := after.same.limit
  have known := after.known
  have full := after.full
  clear after
  revert limit known full
  unfold CapturePrivacy.assignDigest
  split
  · rename_i existing found
    intro limit known full
    rw [known (key.1, key.2) existing found]
  · rename_i missing
    split
    · rename_i none
      intro limit known full
      dsimp only at full limit
      rw [full none, missing]
      dsimp only
      rw [if_pos (by rw [limit]; exact none)]
    · intro limit known full
      rw [known (key.1, key.2) _ (by dsimp only; rw [FiniteMap.lookup_insert_ite, if_pos rfl])]

/-! ## What a table answers -/

/-- The key is shown by a prefix of its digest that is its own, or by the
whole digest. -/
structure ShownBy (privacy : CapturePrivacy) (key : DigestKey) (len : Nat) :
    Prop where
  short : len ≤ 32
  rendered : (privacy.assignDigest key.1 key.2).2.rendered = hexEncode (key.2.val.take len)
  own : len ≠ 32 → privacy.byRendered.lookup (.new key.2 len) = some key

theorem TableHolds.answer_tracked {privacy : CapturePrivacy}
    {tracked before after : List DigestKey} {key : DigestKey}
    (holds : TableHolds privacy tracked) (split : tracked = before ++ key :: after) :
    (∃ len, ShownBy privacy key len) ∧
      ((privacy.assignDigest key.1 key.2).2.ordinal.map UInt32.toNat) =
        some (before.countP (fun other => other.1 = key.1) + 1) := by
  obtain ⟨pseudonym, found, number⟩ :=
    holds.numbered before key after split
  obtain ⟨owner, len, short, shape⟩ := holds.shown key pseudonym found
  have answer : (privacy.assignDigest key.1 key.2).2 =
      ⟨pseudonym.rendered.render, some pseudonym.ordinal⟩ := by
    unfold CapturePrivacy.assignDigest
    rw [Prod.mk.eta, found]
  refine ⟨⟨len, short, ?_, fun _ => shape ▸ owner⟩, ?_⟩
  · rw [answer, shape, RenderedPrefix.render_new short]
  · rw [answer, Option.map_some, number]

theorem TableHolds.answer_untracked {privacy : CapturePrivacy}
    {tracked : List DigestKey} {key : DigestKey}
    (holds : TableHolds privacy tracked) (fresh : key ∉ tracked)
    (full : privacy.maxTrackedPseudonyms ≤ tracked.length) :
    ShownBy privacy key 32 ∧
      (privacy.assignDigest key.1 key.2).2.ordinal = none := by
  have answer : (privacy.assignDigest key.1 key.2).2 =
      ⟨hexEncode key.2.val, none⟩ := by
    have missing := holds.lookup_eq_none fresh
    unfold CapturePrivacy.assignDigest
    rw [Prod.mk.eta, missing]
    dsimp only
    rw [if_pos (by rw [holds.size]; exact full)]
  refine ⟨⟨Nat.le_refl _, ?_, fun never => absurd rfl never⟩, ?_⟩
  · rw [answer, List.take_of_length_le (by rw [key.2.property])]
  · rw [answer]

/-- Keys that are told apart by their digests are shown differently. -/
theorem ShownBy.key_eq {privacy : CapturePrivacy} {key other : DigestKey}
    {len otherLen : Nat} (shown : ShownBy privacy key len)
    (otherShown : ShownBy privacy other otherLen) (apart : key.2 = other.2 → key = other)
    (equal : (privacy.assignDigest key.1 key.2).2.rendered =
      (privacy.assignDigest other.1 other.2).2.rendered) :
    key = other := by
  rw [shown.rendered, otherShown.rendered] at equal
  have bytes := hexEncode_injective equal
  have lengths := congrArg List.length bytes
  rw [List.length_take, List.length_take, key.2.property, other.2.property,
    Nat.min_eq_left shown.short, Nat.min_eq_left otherShown.short] at lengths
  subst lengths
  by_cases whole : len = 32
  · subst whole
    rw [List.take_of_length_le (by rw [key.2.property]),
      List.take_of_length_le (by rw [other.2.property])] at bytes
    exact apart (Subtype.ext bytes)
  · have same := RenderedPrefix.new_injective shown.short shown.short bytes
    have owner := shown.own whole
    rw [same, otherShown.own whole] at owner
    exact (Option.some.inj owner).symm

end Ratspeak.Activity
