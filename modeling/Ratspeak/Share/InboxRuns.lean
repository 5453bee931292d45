import Ratspeak.Share.Inbox

/-!
# Every inbox that is stored can be read again

One lemma says what an operation can do to an inbox.  From it follow the
invariant that the decoder checks, the growth of the revisions, the receipts
as the last identifiers that left, and what an edit may touch.
-/

namespace Ratspeak.Share

open Library Library.Json

/-- The text of a draft, with its photo, is one that may be stored. -/
def Storable (text : String) (image : Option Image) : Prop :=
  validateContent text image = .ok ()

/-! ## What an operation does -/

/-- An operation brings an identifier. -/
def Brings (operation : Operation) (id : String) : Prop :=
  (∃ text subject, operation = .accept id text subject) ∨
    ∃ text subject image, operation = .acceptImage id text subject image

/-- The item that an edit is about. -/
structure Addressed (item : Item) (identity : String)
    (args : TextShareEdit) : Prop where
  id : item.id = args.id
  revision : item.revision = args.revision
  owner : ∀ owner, item.identity = some owner → owner = identity
  valid : validHash identity = true

/-- An item after an edit, but for its revision. -/
structure Edited (item changed : Item) (identity : String)
    (args : TextShareEdit) : Prop where
  id : changed.id = item.id
  storable : Storable changed.text changed.image
  identity : changed.identity = some identity
  recipient : (changed.recipient = item.recipient ∧ item.identity ≠ none) ∨
    ∃ recipient, changed.recipient = some recipient ∧ validHash recipient = true
  attempted : item.sendAttempted = true → changed.sendAttempted = false →
    args.operation = "assign"

inductive Effect (inbox : Inbox) :
    Operation → Inbox → Outcome → Prop
  | again {operation : Operation} {id : String}
      (brings : Brings operation id) (known : inbox.known id = true) :
      Effect inbox operation inbox (.accepted false)
  | added {operation : Operation} {id : String} (text : String)
      (image : Option Image) (brings : Brings operation id)
      (unknown : inbox.known id = false) (valid : validHash id = true)
      (storable : Storable text image)
      (room : inbox.items.length < maxItems)
      (left : inbox.revision < u64Max) :
      Effect inbox operation
        { inbox with
          revision := inbox.revision + 1
          items := inbox.items ++
            [⟨id, (inbox.revision + 1).repr, text, none, none, false, image⟩] }
        (.accepted true)
  | discarded {identity : String} {args : TextShareEdit}
      (before after : List Item) (item : Item)
      (splits : inbox.items = before ++ item :: after)
      (addressed : Addressed item identity args)
      (left : inbox.revision < u64Max) :
      Effect inbox (.edit identity args)
        { inbox with
          revision := inbox.revision + 1
          items := before ++ after
          receipts := Inbox.lastReceipts (inbox.receipts ++ [item.id]) }
        (.edited none)
  | revised {identity : String} {args : TextShareEdit}
      (before after : List Item) (item changed : Item)
      (splits : inbox.items = before ++ item :: after)
      (addressed : Addressed item identity args)
      (edited : Edited item changed identity args)
      (left : inbox.revision < u64Max)
      (newest : changed.revision = (inbox.revision + 1).repr) :
      Effect inbox (.edit identity args)
        { inbox with
          revision := inbox.revision + 1
          items := before ++ changed :: after }
        (.edited (some changed))
  | pruned (identities : List String) :
      Effect inbox (.prune identities) (inbox.prune identities).1
        (.pruned (inbox.prune identities).2)

/-! ## Operations have these effects -/

theorem nextRevision_eq_ok {inbox : Inbox} {next : Inbox × String}
    (equal : inbox.nextRevision = .ok next) :
    inbox.revision < u64Max ∧
      next = ({ inbox with revision := inbox.revision + 1 },
        (inbox.revision + 1).repr) := by
  unfold Inbox.nextRevision at equal
  split at equal
  · rename_i left
    cases equal
    exact ⟨left, rfl⟩
  · cases equal

theorem acceptContent_effect {inbox next : Inbox} {operation : Operation}
    {id text : String} {image : Option Image} {isNew : Bool} (brings : Brings operation id)
    (accepted : inbox.acceptContent id text image = .ok (next, isNew)) :
    Effect inbox operation next (.accepted isNew) := by
  unfold Inbox.acceptContent at accepted
  obtain ⟨_, isHash, accepted⟩ := bind_eq_ok accepted
  obtain ⟨_, storable, accepted⟩ := bind_eq_ok accepted
  have valid : validHash id = true := by
    have := refuseIf_eq_ok isHash
    simpa using this
  split at accepted
  · rename_i known
    cases accepted
    exact .again brings known
  · rename_i unknown
    obtain ⟨_, room, accepted⟩ := bind_eq_ok accepted
    obtain ⟨revised, isNext, accepted⟩ := bind_eq_ok accepted
    obtain ⟨left, rfl⟩ := nextRevision_eq_ok isNext
    cases accepted
    exact .added text image brings (Bool.eq_false_iff.mpr unknown) valid
      storable (Nat.lt_of_not_le (refuseIf_eq_ok room)) left

private theorem split_at {items : List Item} :
    ∀ {index : Nat} {item : Item}, items[index]? = some item →
      ∃ before after, items = before ++ item :: after ∧
        before.length = index := by
  induction items with
  | nil =>
      intro index item known
      cases known
  | cons head tail ih =>
      intro index item known
      cases index with
      | zero =>
          rw [List.getElem?_cons_zero] at known
          cases known
          exact ⟨[], tail, rfl, rfl⟩
      | succ index =>
          rw [List.getElem?_cons_succ] at known
          obtain ⟨before, after, splits, length⟩ := ih known
          exact ⟨head :: before, after, by rw [splits, List.cons_append],
            by rw [List.length_cons, length]⟩

theorem position_eq_some {inbox : Inbox} {args : TextShareEdit}
    {index : Nat} {item : Item} (found : inbox.position args = some (index, item)) :
    inbox.items[index]? = some item ∧ item.id = args.id ∧
      item.revision = args.revision := by
  unfold Inbox.position at found
  obtain ⟨held, known, same⟩ := Option.map_eq_some_iff.mp found
  cases same
  have passes := List.findIdx_of_getElem?_eq_some known
  rw [Bool.and_eq_true, decide_eq_true_eq, decide_eq_true_eq] at passes
  exact ⟨known, passes⟩

theorem revise_effect {inbox next : Inbox} {identity : String}
    {args : TextShareEdit} {before after : List Item} {item changed : Item}
    {result : Option Item} (splits : inbox.items = before ++ item :: after)
    (addressed : Addressed item identity args) (edited : Edited item changed identity args)
    (revised : inbox.revise before.length changed = .ok (next, result)) :
    Effect inbox (.edit identity args) next (.edited result) := by
  unfold Inbox.revise at revised
  obtain ⟨later, isNext, revised⟩ := bind_eq_ok revised
  obtain ⟨left, rfl⟩ := nextRevision_eq_ok isNext
  cases revised
  have replaced (new : Item) : inbox.items.set before.length new =
      before ++ new :: after := by
    rw [splits, List.set_append_right _ _ (Nat.le_refl _), Nat.sub_self, List.set_cons_zero]
  rw [replaced]
  have same : Edited item
      { changed with revision := (inbox.revision + 1).repr } identity args :=
    ⟨edited.id, edited.storable, edited.identity, edited.recipient, edited.attempted⟩
  exact .revised before after item _ splits addressed same left rfl

theorem discard_effect {inbox next : Inbox} {identity : String}
    {args : TextShareEdit} {before after : List Item} {item : Item}
    {result : Option Item} (few : inbox.receipts.length ≤ maxReceipts)
    (splits : inbox.items = before ++ item :: after) (addressed : Addressed item identity args)
    (discarded : inbox.discard before.length item = .ok (next, result)) :
    Effect inbox (.edit identity args) next (.edited result) := by
  unfold Inbox.discard at discarded
  obtain ⟨later, isNext, discarded⟩ := bind_eq_ok discarded
  obtain ⟨left, rfl⟩ := nextRevision_eq_ok isNext
  cases discarded
  have erased : inbox.items.eraseIdx before.length = before ++ after := by
    rw [splits, List.eraseIdx_append_of_length_le (Nat.le_refl _),
      Nat.sub_self, List.eraseIdx_cons_zero]
  have receipts : (if (inbox.receipts ++ [item.id]).length > maxReceipts then
      (inbox.receipts ++ [item.id]).drop 1
      else inbox.receipts ++ [item.id]) =
        Inbox.lastReceipts (inbox.receipts ++ [item.id]) := by
    unfold Inbox.lastReceipts
    rw [List.length_append, List.length_singleton]
    split
    · rename_i full
      have exceeds : inbox.receipts.length + 1 - maxReceipts = 1 := by
        omega
      rw [exceeds]
    · rename_i room
      have exceeds : inbox.receipts.length + 1 - maxReceipts = 0 := by
        omega
      rw [exceeds, List.drop_zero]
  rw [erased, receipts]
  exact .discarded before after item splits addressed left

theorem assign_effect {inbox next : Inbox} {identity : String}
    {args : TextShareEdit} {before after : List Item} {item : Item}
    {result : Option Item} (operation : args.operation = "assign")
    (splits : inbox.items = before ++ item :: after) (addressed : Addressed item identity args)
    (assigned : inbox.assign identity args before.length item = .ok (next, result)) :
    Effect inbox (.edit identity args) next (.edited result) := by
  unfold Inbox.assign at assigned
  obtain ⟨recipient, isRecipient, assigned⟩ := bind_eq_ok assigned
  obtain ⟨_, _, assigned⟩ := bind_eq_ok assigned
  obtain ⟨_, storable, assigned⟩ := bind_eq_ok assigned
  have valid := (Option.filter_eq_some_iff.mp (okOr_eq_ok isRecipient)).2
  refine revise_effect splits addressed ?_ assigned
  refine ⟨rfl, storable, rfl, ?_, ?_⟩
  · exact Or.inr ⟨recipient, rfl, valid⟩
  · exact fun _ _ => operation

theorem draft_effect {inbox next : Inbox} {identity : String}
    {args : TextShareEdit} {before after : List Item} {item : Item} {result : Option Item}
    (splits : inbox.items = before ++ item :: after) (addressed : Addressed item identity args)
    (drafted : inbox.draft args before.length item = .ok (next, result)) :
    Effect inbox (.edit identity args) next (.edited result) := by
  unfold Inbox.draft at drafted
  obtain ⟨_, owned, drafted⟩ := bind_eq_ok drafted
  obtain ⟨text, _, drafted⟩ := bind_eq_ok drafted
  obtain ⟨_, storable, drafted⟩ := bind_eq_ok drafted
  have hasOwner := refuseIf_eq_ok owned
  refine revise_effect splits addressed ?_ drafted
  refine ⟨rfl, storable, ?_, ?_, ?_⟩
  · obtain ⟨owner, isOwner⟩ := Option.ne_none_iff_exists'.mp hasOwner
    rw [isOwner, addressed.owner owner isOwner]
  · exact Or.inl ⟨rfl, hasOwner⟩
  · intro attempted cleared
    rw [attempted] at cleared
    cases cleared

theorem sending_effect {inbox next : Inbox} {identity : String}
    {args : TextShareEdit} {before after : List Item} {item : Item}
    {result : Option Item} (storable : Storable item.text item.image)
    (splits : inbox.items = before ++ item :: after) (addressed : Addressed item identity args)
    (sent : inbox.sending before.length item = .ok (next, result)) :
    Effect inbox (.edit identity args) next (.edited result) := by
  unfold Inbox.sending at sent
  obtain ⟨_, owned, sent⟩ := bind_eq_ok sent
  have hasOwner := refuseIf_eq_ok owned
  refine revise_effect splits addressed ?_ sent
  refine ⟨rfl, storable, ?_, ?_, ?_⟩
  · obtain ⟨owner, isOwner⟩ := Option.ne_none_iff_exists'.mp hasOwner
    rw [isOwner, addressed.owner owner isOwner]
  · exact Or.inl ⟨rfl, hasOwner⟩
  · intro _ cleared
    cases cleared

/-! ## What the decoder checks -/

/-- An item that the decoder accepts, in an inbox of a revision. -/
structure ValidItem (revision : Nat) (item : Item) : Prop where
  id : validHash item.id = true
  storable : Storable item.text item.image
  revised : ∃ number, item.revision = number.repr ∧ 0 < number ∧ number ≤ revision
  identity : ∀ value, item.identity = some value → validHash value = true
  recipient : ∀ value, item.recipient = some value → validHash value = true
  paired : item.identity.isSome = item.recipient.isSome
  attempted : item.sendAttempted = true → item.identity ≠ none

structure Valid (inbox : Inbox) : Prop where
  version : inbox.version = 1
  few : inbox.items.length ≤ maxItems
  fewReceipts : inbox.receipts.length ≤ maxReceipts
  small : inbox.revision ≤ u64Max
  receipts : ∀ id ∈ inbox.receipts, validHash id = true
  items : ∀ item ∈ inbox.items, ValidItem inbox.revision item
  ids : (inbox.items.map Item.id).Nodup
  revisions : (inbox.items.map Item.revision).Nodup

theorem valid_default : Valid Inbox.default where
  version := rfl
  few := Nat.zero_le _
  fewReceipts := Nat.zero_le _
  small := Nat.zero_le _
  receipts := fun _ inside => by cases inside
  items := fun _ inside => by cases inside
  ids := List.nodup_nil
  revisions := List.nodup_nil

theorem edit_effect {inbox next : Inbox} {identity : String}
    {args : TextShareEdit} {result : Option Item} (valid : Valid inbox)
    (edited : inbox.edit identity args = .ok (next, result)) :
    Effect inbox (.edit identity args) next (.edited result) := by
  unfold Inbox.edit at edited
  obtain ⟨_, isHash, edited⟩ := bind_eq_ok edited
  obtain ⟨⟨index, item⟩, found, edited⟩ := bind_eq_ok edited
  obtain ⟨_, owned, edited⟩ := bind_eq_ok edited
  obtain ⟨known, id, revision⟩ := position_eq_some (okOr_eq_ok found)
  obtain ⟨before, after, splits, rfl⟩ := split_at known
  have inside : item ∈ inbox.items := by
    rw [splits]
    exact List.mem_append_right before List.mem_cons_self
  have addressed : Addressed item identity args := by
    refine ⟨id, revision, fun owner isOwner => ?_, ?_⟩
    · have allowed := refuseIf_eq_ok owned
      rw [isOwner] at allowed
      simpa using allowed
    · have allowed := refuseIf_eq_ok isHash
      simpa using allowed
  split at edited
  · exact discard_effect valid.fewReceipts splits addressed edited
  · split at edited
    · rename_i operation
      exact assign_effect operation splits addressed edited
    · split at edited
      · exact draft_effect splits addressed edited
      · split at edited
        · exact sending_effect (valid.items item inside).storable splits addressed edited
        · cases edited

theorem perform_effect {inbox next : Inbox} {operation : Operation}
    {outcome : Outcome} (valid : Valid inbox)
    (performed : inbox.perform operation = .ok (next, outcome)) :
    Effect inbox operation next outcome := by
  cases operation with
  | accept id text subject =>
      obtain ⟨⟨after, isNew⟩, accepted, same⟩ := map_eq_ok performed
      cases same
      obtain ⟨body, _, accepted⟩ := bind_eq_ok accepted
      exact acceptContent_effect (Or.inl ⟨text, subject, rfl⟩) accepted
  | acceptImage id text subject image =>
      obtain ⟨⟨after, isNew⟩, accepted, same⟩ := map_eq_ok performed
      cases same
      obtain ⟨body, _, accepted⟩ := bind_eq_ok accepted
      exact acceptContent_effect (Or.inr ⟨text, subject, image, rfl⟩) accepted
  | edit identity args =>
      obtain ⟨⟨after, item⟩, edited, same⟩ := map_eq_ok performed
      cases same
      exact edit_effect valid edited
  | prune identities =>
      cases performed
      exact .pruned identities

/-! ## The invariant -/

theorem ValidItem.mono {revision later : Nat} {item : Item}
    (valid : ValidItem revision item) (ordered : revision ≤ later) :
    ValidItem later item := by
  obtain ⟨number, written, positive, most⟩ := valid.revised
  exact ⟨valid.id, valid.storable,
    ⟨number, written, positive, Nat.le_trans most ordered⟩, valid.identity,
    valid.recipient, valid.paired, valid.attempted⟩

/-- The next revision is not in use yet. -/
theorem Valid.newest {inbox : Inbox} (valid : Valid inbox) (left : inbox.revision < u64Max) :
    (inbox.revision + 1).repr ∉ inbox.items.map Item.revision := by
  intro inside
  obtain ⟨item, member, same⟩ := List.mem_map.mp inside
  obtain ⟨number, written, _, most⟩ := (valid.items item member).revised
  have fits : number ≤ u64Max := Nat.le_trans most valid.small
  have equal : number = inbox.revision + 1 :=
    repr_injective fits left (written.symm.trans same)
  omega

theorem length_lastReceipts (receipts : List String) :
    (Inbox.lastReceipts receipts).length ≤ maxReceipts := by
  rw [Inbox.lastReceipts, List.length_drop]
  omega

theorem mem_of_mem_lastReceipts {id : String} {receipts : List String}
    (inside : id ∈ Inbox.lastReceipts receipts) : id ∈ receipts :=
  List.mem_of_mem_drop inside

theorem validHash_receipts {inbox : Inbox} (valid : Valid inbox)
    {removed : List Item} (known : ∀ item ∈ removed, item ∈ inbox.items) :
    ∀ id ∈ Inbox.lastReceipts (inbox.receipts ++ removed.map Item.id),
      validHash id = true := by
  intro id inside
  rcases List.mem_append.mp (mem_of_mem_lastReceipts inside) with old | new
  · exact valid.receipts id old
  · obtain ⟨item, member, rfl⟩ := List.mem_map.mp new
    exact (valid.items item (known item member)).id

/-- A smaller inbox, where items have left. -/
theorem Valid.sublist {inbox : Inbox} (valid : Valid inbox)
    {items : List Item} {removed : List Item} {revision : Nat}
    (fewer : items.Sublist inbox.items) (known : ∀ item ∈ removed, item ∈ inbox.items)
    (ordered : inbox.revision ≤ revision) (small : revision ≤ u64Max) :
    Valid { inbox with
      revision := revision
      items := items
      receipts :=
        Inbox.lastReceipts (inbox.receipts ++ removed.map Item.id) } where
  version := valid.version
  few := Nat.le_trans fewer.length_le valid.few
  fewReceipts := length_lastReceipts _
  small := small
  receipts := validHash_receipts valid known
  items := fun item inside =>
    (valid.items item (fewer.subset inside)).mono ordered
  ids := valid.ids.sublist (fewer.map Item.id)
  revisions := valid.revisions.sublist (fewer.map Item.revision)

/-- An inbox with one item changed. -/
theorem Valid.revise {inbox : Inbox} (valid : Valid inbox)
    {before after : List Item} {item changed : Item} {identity : String}
    {args : TextShareEdit} (splits : inbox.items = before ++ item :: after)
    (addressed : Addressed item identity args)
    (edited : Edited item changed identity args) (left : inbox.revision < u64Max)
    (newest : changed.revision = (inbox.revision + 1).repr) :
    Valid { inbox with
      revision := inbox.revision + 1
      items := before ++ changed :: after } := by
  have inside : item ∈ inbox.items := by
    rw [splits]
    exact List.mem_append_right before List.mem_cons_self
  have old := valid.items item inside
  have changedValid : ValidItem (inbox.revision + 1) changed := by
    refine ⟨?_, edited.storable,
      ⟨inbox.revision + 1, newest, Nat.succ_pos _, Nat.le_refl _⟩, ?_, ?_, ?_,
      ?_⟩
    · rw [edited.id]
      exact old.id
    · intro value isValue
      rw [edited.identity] at isValue
      cases isValue
      exact addressed.valid
    · intro value isValue
      rcases edited.recipient with ⟨same, _⟩ | ⟨recipient, same, isHash⟩
      · rw [same] at isValue
        exact old.recipient value isValue
      · rw [same] at isValue
        cases isValue
        exact isHash
    · rw [edited.identity]
      rcases edited.recipient with ⟨same, owned⟩ | ⟨recipient, same, _⟩
      · rw [same, ← old.paired]
        exact (Option.isSome_iff_ne_none.mpr owned).symm
      · rw [same]
        rfl
    · intro _ never
      rw [edited.identity] at never
      cases never
  have ids : (before ++ changed :: after).map Item.id =
      inbox.items.map Item.id := by
    rw [splits, List.map_append, List.map_append, List.map_cons, List.map_cons, edited.id]
  have fresh := valid.newest left
  have revisions := valid.revisions
  rw [splits, List.map_append, List.map_cons] at fresh revisions
  refine ⟨valid.version, ?_, valid.fewReceipts, left, valid.receipts, ?_, ?_, ?_⟩
  · have length := congrArg List.length ids
    rw [List.length_map, List.length_map] at length
    rw [length]
    exact valid.few
  · intro other member
    rcases List.mem_append.mp member with first | rest
    · refine (valid.items other ?_).mono (Nat.le_succ _)
      rw [splits]
      exact List.mem_append_left _ first
    · rcases List.mem_cons.mp rest with same | last
      · rw [same]
        exact changedValid
      · refine (valid.items other ?_).mono (Nat.le_succ _)
        rw [splits]
        exact List.mem_append_right before (List.mem_cons_of_mem item last)
  · rw [ids]
    exact valid.ids
  · rw [List.map_append, List.map_cons, newest]
    rw [List.mem_append, List.mem_cons, not_or, not_or] at fresh
    obtain ⟨notFirst, _, notLast⟩ := fresh
    refine List.nodup_middle.mpr (List.nodup_cons.mpr ⟨?_, ?_⟩)
    · rw [List.mem_append, not_or]
      exact ⟨notFirst, notLast⟩
    · exact (List.nodup_cons.mp (List.nodup_middle.mp revisions)).2

theorem Valid.effect {inbox next : Inbox} {operation : Operation}
    {outcome : Outcome} (valid : Valid inbox)
    (effect : Effect inbox operation next outcome) : Valid next := by
  cases effect with
  | again brings known => exact valid
  | added text image brings unknown isHash storable room left =>
      rename_i id
      have newId : id ∉ inbox.items.map Item.id := by
        intro inside
        obtain ⟨item, member, same⟩ := List.mem_map.mp inside
        have known : inbox.known id = true := by
          rw [Inbox.known, Bool.or_eq_true]
          exact Or.inr (List.any_eq_true.mpr ⟨item, member, decide_eq_true same⟩)
        rw [unknown] at known
        cases known
      refine ⟨valid.version, ?_, valid.fewReceipts, left, valid.receipts, ?_, ?_, ?_⟩
      · rw [List.length_append, List.length_singleton]
        exact room
      · intro item member
        rcases List.mem_append.mp member with old | new
        · exact (valid.items item old).mono (Nat.le_succ _)
        · rw [List.mem_singleton] at new
          subst new
          refine ⟨isHash, storable, ⟨_, rfl, Nat.succ_pos _, Nat.le_refl _⟩, ?_, ?_, rfl, ?_⟩
          · intro value never
            cases never
          · intro value never
            cases never
          · intro never
            cases never
      · rw [List.map_append]
        exact List.Nodup.append valid.ids (List.nodup_singleton id)
          (List.disjoint_singleton.mpr newId)
      · rw [List.map_append]
        exact List.Nodup.append valid.revisions (List.nodup_singleton _)
          (List.disjoint_singleton.mpr (valid.newest left))
  | discarded before after item splits addressed left =>
      refine @Valid.sublist inbox valid (before ++ after) [item]
        (inbox.revision + 1) ?_ ?_ (Nat.le_succ _) left
      · rw [splits]
        exact List.Sublist.append_left (List.sublist_cons_self item after) before
      · intro other member
        rw [List.mem_singleton] at member
        rw [member, splits]
        exact List.mem_append_right before List.mem_cons_self
  | revised before after item changed splits addressed edited left newest =>
      exact valid.revise splits addressed edited left newest
  | pruned identities =>
      exact valid.sublist List.filter_sublist
        (fun item member => List.mem_of_mem_filter member) (Nat.le_refl _)
        valid.small

/-! ## Decoding what was encoded -/

/-- Every item passes its check. -/
theorem foldlM_checkItem {inbox : Inbox} (items : List Item) :
    ∀ ids : List String, (∀ item ∈ items, ValidItem inbox.revision item) →
      inbox.revision ≤ u64Max → (items.map Item.id).Nodup →
      (∀ item ∈ items, item.id ∉ ids) →
      ∃ all, items.foldlM (checkItem inbox) ids = .ok all := by
  induction items with
  | nil =>
      intro ids _ _ _ _
      exact ⟨ids, rfl⟩
  | cons item rest ih =>
      intro ids valid small distinct new
      have itemValid := valid item List.mem_cons_self
      obtain ⟨number, written, positive, most⟩ := itemValid.revised
      have parsed : parseU64 item.revision = some number := by
        rw [written]
        exact parseU64_repr (Nat.le_trans most small)
      have checked : checkItem inbox ids item = .ok (item.id :: ids) := by
        have storable : validateContent item.text item.image = .ok () :=
          itemValid.storable
        rw [checkItem, storable, ok_bind, parsed, okOr_some, ok_bind, refuseIf_of_not, ok_bind]
        · rfl
        · rintro (noHash | seen | zero | late | other | owner | reader |
            single | orphan)
          · rw [itemValid.id] at noHash
            cases noHash
          · exact new item List.mem_cons_self seen
          · omega
          · omega
          · exact other written.symm
          · cases isOwner : item.identity with
            | none =>
                rw [isOwner] at owner
                cases owner
            | some value =>
                rw [isOwner] at owner
                simp [itemValid.identity value isOwner] at owner
          · cases isReader : item.recipient with
            | none =>
                rw [isReader] at reader
                cases reader
            | some value =>
                rw [isReader] at reader
                simp [itemValid.recipient value isReader] at reader
          · exact single itemValid.paired
          · exact itemValid.attempted orphan.1 orphan.2
      rw [List.map_cons, List.nodup_cons] at distinct
      obtain ⟨all, rest⟩ := ih (item.id :: ids)
        (fun other member => valid other (List.mem_cons_of_mem item member))
        small distinct.2 (by
          intro other member
          rw [List.mem_cons, not_or]
          refine ⟨fun same => distinct.1 ?_,
            new other (List.mem_cons_of_mem item member)⟩
          rw [← same]
          exact List.mem_map_of_mem member)
      refine ⟨all, ?_⟩
      rw [List.foldlM_cons, checked, ok_bind]
      exact rest

theorem encode_ne_nil (inbox : Inbox) : inbox.encode ≠ [] := by
  intro empty
  cases empty

/-- What is valid and fits is accepted as it was. -/
theorem Valid.decode {inbox : Inbox} (valid : Valid inbox)
    (fits : textSize inbox.encode ≤ maxStoreBytes) {fromStr : Reader}
    (reads : fromStr inbox.encode = some inbox) :
    Inbox.decode fromStr inbox.encode = .ok inbox := by
  obtain ⟨all, checked⟩ := foldlM_checkItem inbox.items [] valid.items
    valid.small valid.ids nofun
  rw [Inbox.decode, if_neg (encode_ne_nil inbox),
    refuseIf_of_not _ (Nat.not_lt_of_le fits), ok_bind, reads, okOr_some,
    ok_bind, refuseIf_of_not, ok_bind, checked, ok_bind, refuseIf_of_not,
    ok_bind]
  · rfl
  · rw [List.any_eq_true]
    rintro ⟨id, member, noHash⟩
    rw [valid.receipts id member] at noHash
    cases noHash
  · rintro (version | many | manyReceipts)
    · exact version valid.version
    · exact Nat.not_lt_of_le valid.few many
    · exact Nat.not_lt_of_le valid.fewReceipts manyReceipts

/-! ## What leaves the inbox -/

/-- The identifiers of the items that one inbox has and the other has not. -/
def departed (inbox next : Inbox) : List String :=
  (inbox.items.filter fun item =>
    item.id ∉ next.items.map Item.id).map Item.id

private theorem filter_departed {items : List Item}
    (distinct : (items.map Item.id).Nodup) (stays : Item → Bool) :
    items.filter (fun item => item.id ∉ (items.filter stays).map Item.id) =
      items.filter fun item => !stays item := by
  refine List.filter_congr fun item inside => ?_
  cases kept : stays item with
  | true =>
      have listed : item.id ∈ (items.filter stays).map Item.id :=
        List.mem_map_of_mem (List.mem_filter.mpr ⟨inside, kept⟩)
      simp [listed]
  | false =>
      have unlisted : item.id ∉ (items.filter stays).map Item.id := by
        intro listed
        obtain ⟨other, member, same⟩ := List.mem_map.mp listed
        obtain ⟨known, passes⟩ := List.mem_filter.mp member
        have equal : other = item :=
          List.inj_on_of_nodup_map distinct known inside same
        rw [equal, kept] at passes
        cases passes
      simp only [Bool.not_false]
      exact decide_eq_true unlisted

theorem departed_nil {inbox next : Inbox}
    (stays : ∀ id ∈ inbox.items.map Item.id, id ∈ next.items.map Item.id) :
    departed inbox next = [] := by
  have none : (inbox.items.filter fun item =>
      item.id ∉ next.items.map Item.id) = [] := by
    rw [List.filter_eq_nil_iff]
    intro item inside gone
    exact of_decide_eq_true gone (stays item.id (List.mem_map_of_mem inside))
  rw [departed, none, List.map_nil]

/-- Without the one item of an identifier the others are left. -/
private theorem filter_split {before after : List Item} {item : Item}
    (distinct : ((before ++ item :: after).map Item.id).Nodup) :
    (before ++ item :: after).filter (fun other => other.id ≠ item.id) =
        before ++ after ∧
      (before ++ item :: after).filter
        (fun other => !decide (other.id ≠ item.id)) = [item] := by
  rw [List.map_append, List.map_cons, List.nodup_middle,
    List.nodup_cons, List.mem_append, not_or] at distinct
  obtain ⟨⟨notBefore, notAfter⟩, _⟩ := distinct
  have first (other : Item) (member : other ∈ before) : other.id ≠ item.id := by
    intro same
    exact notBefore (by rw [← same]; exact List.mem_map_of_mem member)
  have last (other : Item) (member : other ∈ after) : other.id ≠ item.id := by
    intro same
    exact notAfter (by rw [← same]; exact List.mem_map_of_mem member)
  have keepsFirst : before.filter (fun other => other.id ≠ item.id) = before :=
    List.filter_eq_self.mpr fun other member =>
      decide_eq_true (first other member)
  have keepsLast : after.filter (fun other => other.id ≠ item.id) = after :=
    List.filter_eq_self.mpr fun other member =>
      decide_eq_true (last other member)
  have dropsFirst : before.filter
      (fun other => !decide (other.id ≠ item.id)) = [] :=
    List.filter_eq_nil_iff.mpr fun other member => by
      simp [first other member]
  have dropsLast : after.filter
      (fun other => !decide (other.id ≠ item.id)) = [] :=
    List.filter_eq_nil_iff.mpr fun other member => by
      simp [last other member]
  constructor
  · rw [List.filter_append, keepsFirst, List.filter_cons_of_neg (by simp),
      keepsLast]
  · rw [List.filter_append, dropsFirst, List.filter_cons_of_pos (by simp),
      dropsLast, List.nil_append]

theorem lastReceipts_of_le {receipts : List String} (few : receipts.length ≤ maxReceipts) :
    Inbox.lastReceipts receipts = receipts := by
  have none : receipts.length - maxReceipts = 0 := by
    omega
  rw [Inbox.lastReceipts, none, List.drop_zero]

/-- Only the last of what was kept before matters. -/
theorem lastReceipts_append (first second : List String) :
    Inbox.lastReceipts (Inbox.lastReceipts first ++ second) =
      Inbox.lastReceipts (first ++ second) := by
  unfold Inbox.lastReceipts
  by_cases few : first.length ≤ maxReceipts
  · have none : first.length - maxReceipts = 0 := by
      omega
    rw [none, List.drop_zero]
  · rw [List.length_append, List.length_append, List.length_drop,
      List.drop_append, List.drop_append, List.drop_drop, List.length_drop]
    congr 2
    · omega
    · omega

/-- What leaves is noted in the receipts. -/
theorem receipts_effect {inbox next : Inbox} {operation : Operation}
    {outcome : Outcome} (valid : Valid inbox) (effect : Effect inbox operation next outcome) :
    next.receipts =
      Inbox.lastReceipts (inbox.receipts ++ departed inbox next) := by
  have unchanged := lastReceipts_of_le valid.fewReceipts
  cases effect with
  | again brings known =>
      rw [departed_nil fun id inside => inside, List.append_nil, unchanged]
  | added text image brings unknown isHash storable room left =>
      rw [departed_nil, List.append_nil, unchanged]
      intro id inside
      dsimp only
      rw [List.map_append]
      exact List.mem_append_left _ inside
  | discarded before after item splits addressed left =>
      have distinct := valid.ids
      rw [splits] at distinct
      have gone : departed inbox { inbox with
          revision := inbox.revision + 1
          items := before ++ after
          receipts := Inbox.lastReceipts (inbox.receipts ++ [item.id]) } =
            [item.id] := by
        have split := filter_split distinct
        have left := filter_departed distinct fun other => other.id ≠ item.id
        rw [split.1, split.2] at left
        unfold departed
        dsimp only
        rw [splits, left, List.map_singleton]
      rw [gone]
  | revised before after item changed splits addressed edited left newest =>
      rw [departed_nil, List.append_nil, unchanged]
      intro id inside
      dsimp only
      rw [List.map_append, List.map_cons, edited.id, ← List.map_cons,
        ← List.map_append, ← splits]
      exact inside
  | pruned identities =>
      have others := filter_departed valid.ids fun item =>
        item.identity.any fun id => id ∉ identities
      have removed := filter_departed valid.ids fun item =>
        !item.identity.any fun id => id ∉ identities
      have gone : departed inbox (inbox.prune identities).1 =
          (inbox.items.filter fun item =>
            item.identity.any fun id => id ∉ identities).map Item.id := by
        have items : (inbox.prune identities).1.items =
            inbox.items.filter fun item =>
              !item.identity.any fun id => id ∉ identities :=
          others
        unfold departed
        simp only [items]
        rw [removed]
        simp only [Bool.not_not]
      rw [gone]
      rfl

/-! ## Transactions -/

/-- A transaction fails and changes nothing, or has its effect and fits. -/
theorem transaction_cases {inbox : Inbox} (valid : Valid inbox)
    (operation : Operation) (persist : List Char → Except String Unit) :
    (∃ error, transaction inbox operation persist = (inbox, .error error)) ∨
      ∃ next outcome,
        transaction inbox operation persist = (next, .ok outcome) ∧
        Effect inbox operation next outcome ∧
        textSize next.encode ≤ maxStoreBytes := by
  unfold transaction
  cases performed : inbox.perform operation with
  | error error => exact Or.inl ⟨error, rfl⟩
  | ok result =>
      obtain ⟨next, outcome⟩ := result
      dsimp only
      split
      · exact Or.inl ⟨_, rfl⟩
      · rename_i fits
        cases persist next.encode with
        | error error => exact Or.inl ⟨error, rfl⟩
        | ok =>
            exact Or.inr ⟨next, outcome, rfl, perform_effect valid performed,
              Nat.le_of_not_lt fits⟩

/-- An inbox that can be stored. -/
structure Stored (inbox : Inbox) : Prop where
  valid : Valid inbox
  fits : textSize inbox.encode ≤ maxStoreBytes

theorem stored_default : Stored Inbox.default :=
  ⟨valid_default, by decide +kernel⟩

theorem Stored.step {inbox : Inbox} (stored : Stored inbox)
    (request : Request) : Stored (inbox.step request) := by
  unfold Inbox.step
  rcases transaction_cases stored.valid request.operation request.persist with
    ⟨error, result⟩ | ⟨next, outcome, result, effect, fits⟩
  · rw [result]
    exact stored
  · rw [result]
    exact ⟨stored.valid.effect effect, fits⟩

/-- What one transaction may do. -/
structure LawfulStep (inbox : Inbox) (request : Request) : Prop where
  failed : ∀ error,
    (transaction inbox request.operation request.persist).2 = .error error →
      inbox.step request = inbox
  /-- Revisions grow, and every change has one of its own. -/
  grows : inbox.revision ≤ (inbox.step request).revision ∧
    ∀ item ∈ (inbox.step request).items, item ∈ inbox.items ∨
      ∃ number, item.revision = number.repr ∧ inbox.revision < number ∧
        number ≤ (inbox.step request).revision
  /-- An edit is about one item of exactly this identifier and revision, which
  nobody else owns. -/
  exact : ∀ identity args outcome,
    request.operation = .edit identity args →
      (transaction inbox request.operation request.persist).2 = .ok outcome →
      ∃ before item after, inbox.items = before ++ item :: after ∧
        Addressed item identity args ∧
        ((inbox.step request).items = before ++ after ∨
          ∃ changed, changed.id = item.id ∧
            changed.identity = some identity ∧
            (inbox.step request).items = before ++ changed :: after)
  /-- That sending was attempted is forgotten by an assignment only. -/
  attempted : ∀ item ∈ inbox.items, item.sendAttempted = true →
    ∀ later ∈ (inbox.step request).items, later.id = item.id →
      later.sendAttempted = false →
      ∃ identity args, request.operation = .edit identity args ∧
        args.operation = "assign" ∧ args.id = item.id
  /-- What is in the receipts is not taken again. -/
  refused : ∀ id ∈ inbox.receipts, Brings request.operation id →
    inbox.step request = inbox ∧
      (transaction inbox request.operation request.persist).2 ≠ .ok (.accepted true)

theorem item_unique {inbox : Inbox} (valid : Valid inbox)
    {item later : Item} (known : item ∈ inbox.items)
    (alsoKnown : later ∈ inbox.items) (same : later.id = item.id) :
    later = item :=
  List.inj_on_of_nodup_map valid.ids alsoKnown known same

theorem grows_effect {inbox next : Inbox} {operation : Operation}
    {outcome : Outcome} (effect : Effect inbox operation next outcome) :
    inbox.revision ≤ next.revision ∧
      ∀ item ∈ next.items, item ∈ inbox.items ∨
        ∃ number, item.revision = number.repr ∧ inbox.revision < number ∧
          number ≤ next.revision := by
  cases effect with
  | again brings known => exact ⟨Nat.le_refl _, fun item inside => Or.inl inside⟩
  | added text image brings unknown isHash storable room left =>
      refine ⟨Nat.le_succ _, fun item inside => ?_⟩
      rcases List.mem_append.mp inside with old | new
      · exact Or.inl old
      · rw [List.mem_singleton] at new
        rw [new]
        exact Or.inr ⟨_, rfl, Nat.lt_succ_self _, Nat.le_refl _⟩
  | discarded before after item splits addressed left =>
      refine ⟨Nat.le_succ _, fun other inside => Or.inl ?_⟩
      rw [splits]
      rcases List.mem_append.mp inside with first | last
      · exact List.mem_append_left _ first
      · exact List.mem_append_right before (List.mem_cons_of_mem item last)
  | revised before after item changed splits addressed edited left newest =>
      refine ⟨Nat.le_succ _, fun other inside => ?_⟩
      rcases List.mem_append.mp inside with first | rest
      · rw [splits]
        exact Or.inl (List.mem_append_left _ first)
      · rcases List.mem_cons.mp rest with same | last
        · rw [same]
          exact Or.inr ⟨_, newest, Nat.lt_succ_self _, Nat.le_refl _⟩
        · rw [splits]
          exact Or.inl (List.mem_append_right before (List.mem_cons_of_mem item last))
  | pruned identities =>
      exact ⟨Nat.le_refl _, fun item inside =>
        Or.inl (List.mem_of_mem_filter inside)⟩

theorem attempted_effect {inbox next : Inbox} {operation : Operation}
    {outcome : Outcome} (valid : Valid inbox)
    (effect : Effect inbox operation next outcome) {item later : Item}
    (known : item ∈ inbox.items) (attempted : item.sendAttempted = true)
    (inside : later ∈ next.items) (same : later.id = item.id)
    (cleared : later.sendAttempted = false) :
    ∃ identity args, operation = .edit identity args ∧
      args.operation = "assign" ∧ args.id = item.id := by
  have notOld (old : later ∈ inbox.items) : False := by
    have equal := item_unique valid known old same
    rw [equal, attempted] at cleared
    cases cleared
  cases effect with
  | again brings isKnown => exact absurd inside notOld
  | added text image brings unknown isHash storable room left =>
      rename_i id
      rcases List.mem_append.mp inside with old | new
      · exact absurd old notOld
      · rw [List.mem_singleton] at new
        have isKnown : inbox.known id = true := by
          rw [Inbox.known, Bool.or_eq_true]
          refine Or.inr (List.any_eq_true.mpr ⟨item, known, ?_⟩)
          rw [new] at same
          exact decide_eq_true same.symm
        rw [unknown] at isKnown
        cases isKnown
  | discarded before after other splits addressed left =>
      refine absurd ?_ notOld
      rw [splits]
      rcases List.mem_append.mp inside with first | last
      · exact List.mem_append_left _ first
      · exact List.mem_append_right before (List.mem_cons_of_mem other last)
  | revised before after other changed splits addressed edited left newest =>
      rename_i identity args
      rcases List.mem_append.mp inside with first | rest
      · refine absurd ?_ notOld
        rw [splits]
        exact List.mem_append_left _ first
      · rcases List.mem_cons.mp rest with isChanged | last
        · have isOther : other ∈ inbox.items := by
            rw [splits]
            exact List.mem_append_right before List.mem_cons_self
          have sameId : other.id = item.id := by
            rw [← edited.id, ← isChanged, same]
          have equal := item_unique valid known isOther sameId
          rw [← equal] at attempted
          rw [isChanged] at cleared
          exact ⟨identity, args, rfl, edited.attempted attempted cleared,
            addressed.id.symm.trans sameId⟩
        · refine absurd ?_ notOld
          rw [splits]
          exact List.mem_append_right before (List.mem_cons_of_mem other last)
  | pruned identities => exact absurd (List.mem_of_mem_filter inside) notOld

/-- Whatever an operation brings, it brings one identifier. -/
theorem Brings.unique {operation : Operation} {id other : String}
    (brings : Brings operation id) (alsoBrings : Brings operation other) :
    id = other := by
  rcases brings with ⟨text, subject, rfl⟩ | ⟨text, subject, image, rfl⟩
  · rcases alsoBrings with ⟨_, _, same⟩ | ⟨_, _, _, never⟩
    · cases same
      rfl
    · cases never
  · rcases alsoBrings with ⟨_, _, never⟩ | ⟨_, _, _, same⟩
    · cases never
    · cases same
      rfl

theorem refused_effect {inbox next : Inbox} {operation : Operation}
    {outcome : Outcome} (effect : Effect inbox operation next outcome)
    {id : String} (received : id ∈ inbox.receipts) (brings : Brings operation id) :
    next = inbox ∧ outcome = .accepted false := by
  have known : inbox.known id = true := by
    rw [Inbox.known, Bool.or_eq_true]
    exact Or.inl (List.any_eq_true.mpr ⟨id, received, decide_eq_true rfl⟩)
  cases effect with
  | again _ _ => exact ⟨rfl, rfl⟩
  | added text image alsoBrings unknown isHash storable room left =>
      rw [alsoBrings.unique brings, known] at unknown
      cases unknown
  | discarded before after item splits addressed left =>
      rcases brings with ⟨_, _, never⟩ | ⟨_, _, _, never⟩
      · cases never
      · cases never
  | revised before after item changed splits addressed edited left newest =>
      rcases brings with ⟨_, _, never⟩ | ⟨_, _, _, never⟩
      · cases never
      · cases never
  | pruned identities =>
      rcases brings with ⟨_, _, never⟩ | ⟨_, _, _, never⟩
      · cases never
      · cases never

theorem exact_effect {inbox next : Inbox} {identity : String}
    {args : TextShareEdit} {outcome : Outcome}
    (effect : Effect inbox (.edit identity args) next outcome) :
    ∃ before item after, inbox.items = before ++ item :: after ∧
      Addressed item identity args ∧
      (next.items = before ++ after ∨
        ∃ changed, changed.id = item.id ∧ changed.identity = some identity ∧
          next.items = before ++ changed :: after) := by
  cases effect with
  | again brings known =>
      rcases brings with ⟨_, _, never⟩ | ⟨_, _, _, never⟩
      · cases never
      · cases never
  | added text image brings unknown isHash storable room left =>
      rcases brings with ⟨_, _, never⟩ | ⟨_, _, _, never⟩
      · cases never
      · cases never
  | discarded before after item splits addressed left =>
      exact ⟨before, item, after, splits, addressed, Or.inl rfl⟩
  | revised before after item changed splits addressed edited left newest =>
      exact ⟨before, item, after, splits, addressed,
        Or.inr ⟨changed, edited.id, edited.identity, rfl⟩⟩

theorem lawfulStep {inbox : Inbox} (valid : Valid inbox)
    (request : Request) : LawfulStep inbox request := by
  rcases transaction_cases valid request.operation request.persist with
    ⟨error, result⟩ | ⟨next, outcome, result, effect, _⟩
  · have same : inbox.step request = inbox := by
      rw [Inbox.step, result]
    refine ⟨fun _ _ => same, ?_, ?_, ?_, fun id _ _ => ⟨same, ?_⟩⟩
    · rw [same]
      exact ⟨Nat.le_refl _, fun item inside => Or.inl inside⟩
    · intro identity args outcome _ never
      rw [result] at never
      cases never
    · intro item known attempted later inside equal cleared
      rw [same] at inside
      rw [item_unique valid known inside equal, attempted] at cleared
      cases cleared
    · rw [result]
      intro never
      cases never
  · have reached : inbox.step request = next := by
      rw [Inbox.step, result]
    refine ⟨?_, ?_, ?_, ?_, ?_⟩
    · intro error never
      rw [result] at never
      cases never
    · rw [reached]
      exact grows_effect effect
    · intro identity args _ operation _
      rw [reached]
      rw [operation] at effect
      exact exact_effect effect
    · intro item known attempted later inside equal cleared
      rw [reached] at inside
      exact attempted_effect valid effect known attempted inside equal cleared
    · intro id received brings
      obtain ⟨same, isOld⟩ := refused_effect effect received brings
      refine ⟨reached.trans same, ?_⟩
      rw [result, isOld]
      intro never
      cases never

/-! ## Whole runs -/

/-- The identifiers that left the inbox in a run, in their order. -/
def retired : Inbox → List Request → List String
  | _, [] => []
  | inbox, request :: rest =>
      departed inbox (inbox.step request) ++ retired (inbox.step request) rest

theorem receipts_step {inbox : Inbox} (valid : Valid inbox) (request : Request) :
    (inbox.step request).receipts = Inbox.lastReceipts
      (inbox.receipts ++ departed inbox (inbox.step request)) := by
  unfold Inbox.step
  rcases transaction_cases valid request.operation request.persist with
    ⟨error, result⟩ | ⟨next, outcome, result, effect, _⟩
  · rw [result, departed_nil fun id inside => inside, List.append_nil,
      lastReceipts_of_le valid.fewReceipts]
  · rw [result]
    exact receipts_effect valid effect

theorem receipts_run (requests : List Request) :
    ∀ {inbox : Inbox}, Stored inbox →
      (runFrom Inbox.step inbox requests).receipts =
        Inbox.lastReceipts (inbox.receipts ++ retired inbox requests) := by
  induction requests with
  | nil =>
      intro inbox stored
      rw [retired, List.append_nil, lastReceipts_of_le stored.valid.fewReceipts]
      rfl
  | cons request rest ih =>
      intro inbox stored
      rw [runFrom, ih (stored.step request),
        receipts_step stored.valid request, lastReceipts_append, retired,
        List.append_assoc]

/-- Every inbox that transactions lead to is stored as a text that is read
back as this inbox, with unique identifiers and revisions; its receipts are
the last identifiers that left it, and every further transaction is lawful. -/
theorem inbox_run (fromStr : Reader) (requests : List Request)
    (reads : fromStr (runFrom Inbox.step Inbox.default requests).encode =
      some (runFrom Inbox.step Inbox.default requests)) :
    textSize (runFrom Inbox.step Inbox.default requests).encode ≤
        maxStoreBytes ∧
      Inbox.decode fromStr
          (runFrom Inbox.step Inbox.default requests).encode =
        .ok (runFrom Inbox.step Inbox.default requests) ∧
      ((runFrom Inbox.step Inbox.default requests).items.map Item.id).Nodup ∧
      ((runFrom Inbox.step Inbox.default requests).items.map Item.revision).Nodup ∧
      (runFrom Inbox.step Inbox.default requests).receipts =
        Inbox.lastReceipts (retired Inbox.default requests) ∧
      ∀ request, LawfulStep
        (runFrom Inbox.step Inbox.default requests) request := by
  have stored : Stored (runFrom Inbox.step Inbox.default requests) :=
    invariant_of_forall_step (fun inbox request stored => stored.step request)
      requests stored_default
  have receipts := receipts_run requests stored_default
  exact ⟨stored.fits, stored.valid.decode stored.fits reads,
    stored.valid.ids, stored.valid.revisions, receipts,
    lawfulStep stored.valid⟩

private def sharer : String := "aaaaaaaaaaaaaaaaaaaaaaaaaaaaaaaa"

private def receiver : String := "bbbbbbbbbbbbbbbbbbbbbbbbbbbbbbbb"

/-- A link is shared, assigned and sent. -/
private def sharedLink : List Request :=
  [⟨.accept sharer "https://example.org" "A title", fun _ => .ok ()⟩,
    ⟨.edit sharer ⟨sharer, "1", "assign", some receiver, none⟩, fun _ => .ok ()⟩,
    ⟨.edit sharer ⟨sharer, "2", "sending", none, none⟩, fun _ => .ok ()⟩]

private def sentInbox : Inbox :=
  ⟨1, 3, [⟨sharer, "3", "A title\n\nhttps://example.org", some sharer,
    some receiver, true, none⟩], []⟩

private theorem sharedLink_run :
    runFrom Inbox.step Inbox.default sharedLink = sentInbox := by
  decide +kernel

private def readsSent : Reader := fun raw =>
  if raw = sentInbox.encode then some sentInbox else none

/-- The draft that was sent is read back as one. -/
theorem inbox_run_sharedLink :
    Inbox.decode readsSent
        (runFrom Inbox.step Inbox.default sharedLink).encode =
      .ok sentInbox := by
  have reads : readsSent
      (runFrom Inbox.step Inbox.default sharedLink).encode =
        some (runFrom Inbox.step Inbox.default sharedLink) := by
    rw [sharedLink_run]
    exact if_pos rfl
  have decoded := (inbox_run readsSent sharedLink reads).2.1
  rw [sharedLink_run] at decoded ⊢
  exact decoded

end Ratspeak.Share
