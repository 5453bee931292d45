import Ratspeak.Hub.Bans

/-!
# The index of direct messages

For each identity the hub knows one link, to which notices for that identity
alone go: the last one that identified.  When this link goes away its entry
goes with it, and no other link of the identity takes its place.
-/

namespace Ratspeak

open Library

/-- An identity is mapped to none but a live link of its own, and every
identity with a live link is mapped to one. -/
structure HubCore.DirectlyIndexed (core : HubCore) : Prop where
  sound : ∀ identity link, core.byIdentity.lookup identity = some link →
    core.sessionIdentity link = some identity
  complete : ∀ link identity, core.sessionIdentity link = some identity →
    (core.byIdentity.lookup identity).isSome = true

theorem directlyIndexed_iff (core : HubCore) :
    core.DirectlyIndexed ↔ core.roll.Indexed fun _ => False := by
  constructor
  · intro indexed
    refine ⟨fun identity link entry => ?_, fun link identity proved _ =>
      Option.isSome_iff_exists.mp (indexed.complete link identity proved)⟩
    have proved := indexed.sound identity link entry
    obtain ⟨session, live, -⟩ := Option.bind_eq_some_iff.mp proved
    exact ⟨Option.isSome_iff_exists.mpr ⟨session, live⟩, proved⟩
  · intro indexed
    exact ⟨fun identity link entry => (indexed.sound identity link entry).2,
      fun link identity proved => Option.isSome_iff_exists.mpr
        (indexed.complete link identity proved id)⟩

/-! ## Delivery -/

/-- Whoever is connected hears what is said to it alone: an invite, and a
direct notice that fits a packet, go to a live link of the identity. -/
def HubCore.ReachesDirectly (core : HubCore) : Prop :=
  ∀ link target, core.sessionIdentity link = some target →
    ∃ targetLink, core.sessionIdentity targetLink = some target ∧
      ∀ turn : HubTurn, turn.core.byIdentity = core.byIdentity →
        (∀ roomName keyed,
          turn.pushInviteNotice roomName keyed target =
            turn.pushNotice targetLink (HubTurn.inviteText roomName keyed) (some roomName)) ∧
        ∀ sender identity envelope relayed, envelope.room = none →
          envelope.destination = some target →
          relayed = HubTurn.relayedEnvelope turn.core sender identity none envelope →
          relayed.encodedLen ≤ linkPacketBudget →
            (turn.onDirectNotice sender identity envelope).out.map
                Sent.send =
              turn.out.map Sent.send ++ [.envelope targetLink relayed]

theorem HubCore.DirectlyIndexed.reaches {core : HubCore}
    (indexed : core.DirectlyIndexed) : core.ReachesDirectly := by
  intro link target proved
  obtain ⟨targetLink, entry⟩ :=
    Option.isSome_iff_exists.mp (indexed.complete link target proved)
  refine ⟨targetLink, indexed.sound target targetLink entry,
    fun turn same => ⟨fun roomName keyed => ?_,
      fun sender identity envelope relayed roomless addressed isRelayed fits => ?_⟩⟩
  · rw [HubTurn.pushInviteNotice, same, entry]
  · have silent : (turn.rememberNickname sender envelope).out = turn.out := by
      unfold HubTurn.rememberNickname
      split
      · rfl
      · split
        · rfl
        · rfl
    have listed : turn.core.byIdentity.lookup target = some targetLink := by
      rw [same]
      exact entry
    unfold HubTurn.onDirectNotice
    simp only [roomless, addressed, listed, Option.isSome_none,
      Bool.false_eq_true, if_false, ← isRelayed,
      if_neg (Nat.not_lt.mpr fits)]
    simp [HubTurn.modifyStats, silent]

/-! ## Sessions that end -/

section Steps

variable [UnicodeTables] [HubCrypto]

omit [UnicodeTables] [HubCrypto] in
theorem HubTurn.reapLinks_lookup
    (dead : List (LinkId × HubSessionCloseReason)) (turn : HubTurn) (link : LinkId) :
    (dead.foldl reapLink turn).core.sessions.lookup link =
      if link ∈ dead.map Prod.fst then none
      else turn.core.sessions.lookup link := by
  induction dead generalizing turn with
  | nil => simp
  | cons entry rest ih =>
      have reaped : (turn.reapLink entry).core.sessions.lookup link =
          if link = entry.1 then none else turn.core.sessions.lookup link :=
        closeSession_lookup turn entry.1 link entry.2
      rw [List.foldl_cons, ih, reaped, List.map_cons]
      simp only [List.mem_cons]
      by_cases same : link = entry.1
      · simp only [same, if_true, ite_self, true_or]
      · simp only [same, if_false, false_or]

/-- A command is looked up among the commands. -/
theorem handle_commanded {core : HubCore} {input : HubInput}
    {linkId : LinkId} {identity : IdentityHash} {envelope : Envelope}
    {verb : String} {args : List String}
    (commanded : core.commanded input = some (linkId, identity, envelope))
    (words : HubTurn.slashWords envelope = some (verb, args)) :
    ∃ (ready : HubTurn) (stamped : Envelope),
      HubCore.Accounted core ready.core ∧
      HubTurn.slashWords stamped = some (verb, args) ∧
      ∀ after, ready.handleSlashCommand linkId identity stamped =
          some after →
        core.handle input = after := by
  obtain ⟨delivered, command⟩ := Option.filter_eq_some_iff.mp commanded
  simp only [Bool.and_eq_true, decide_eq_true_eq] at command
  obtain ⟨kind, slash⟩ := command
  have accounted := HubTurn.accounted_received (core.turn input.ambient) linkId envelope
  have proved := HubCore.sessionIdentity_of_delivered delivered
  refine ⟨(core.turn input.ambient).received linkId envelope,
    { envelope with
      timestampMs := sanitizeDisplayTimestampMs envelope.timestampMs
        ((core.turn input.ambient).received linkId envelope).ambient.ms },
    accounted, words, fun after handled => ?_⟩
  have known : ((core.turn input.ambient).received linkId
      envelope).core.sessionIdentity linkId = some identity := by
    rw [accounted.sessionIdentity]
    exact proved
  have relays : ((core.turn input.ambient).received linkId
      envelope).onWelcomedEnvelope linkId envelope =
        ((core.turn input.ambient).received linkId envelope).onRelay linkId
          envelope := by
    simp only [List.mem_cons, List.not_mem_nil, or_false] at kind
    unfold HubTurn.onWelcomedEnvelope
    rcases kind with kind | kind | kind
    · rw [kind]
    · rw [kind]
    · rw [kind]
  have plain : envelope.messageType ≠ .ping ∧
      envelope.messageType ≠ .pong ∧ envelope.messageType ≠ .hello := by
    simp only [List.mem_cons, List.not_mem_nil, or_false] at kind
    rcases kind with kind | kind | kind
    · simp [kind]
    · simp [kind]
    · simp [kind]
  rw [HubTurn.handle_delivered delivered plain, relays, HubTurn.onRelay, known]
  have slashed : HubTurn.isSlashText
      { envelope with
        timestampMs := sanitizeDisplayTimestampMs envelope.timestampMs
          ((core.turn input.ambient).received linkId envelope).ambient.ms } = true := slash
  simp only [slashed, if_true, handled]

/-- Nobody is left of an identity that an event bans from the hub. -/
theorem klined_step {core : HubCore} {input : HubInput}
    {target : IdentityHash} (klined : core.klinedBy input = some target)
    {link : LinkId} (proved : core.sessionIdentity link = some target) :
    (core.step input).sessionIdentity link = none := by
  have dismissed : ∀ turn : HubTurn,
      turn.core.sessionIdentity link = some target →
        (turn.dismissIdentity target).core.sessionIdentity link = none := by
    intro turn here
    rw [HubTurn.sessionIdentity_dismissIdentity, if_pos here]
  unfold HubCore.klinedBy at klined
  split at klined
  · rename_i actor banned event
    split at klined
    · rename_i accepted
      cases klined
      obtain ⟨operator, spared, fresh⟩ := accepted
      rw [HubCore.step, HubCore.handle, event]
      have done : (core.turn input.ambient).adminMutate actor
          (.setHubBan target true) =
            .ok (((core.turn input.ambient).recordKline target
              none).dismissIdentity target) := by
        simp [HubTurn.adminMutate, HubTurn.adminSetHubBan, HubCore.turn,
          operator, spared, fresh]
      simp only [HubTurn.handle, done]
      exact dismissed _ proved
    · cases klined
  · obtain ⟨⟨linkId, identity, envelope⟩, commanded, named⟩ :=
      Option.bind_eq_some_iff.mp klined
    simp only [HubCore.klinedBySlash] at named
    split at named
    · rename_i args words
      obtain ⟨ready, stamped, accounted, sameWords, handled⟩ :=
        handle_commanded commanded words
      have here : ready.core.sessionIdentity link = some target := by
        rw [accounted.sessionIdentity]
        exact proved
      have again : ready.core.klinedBySlash identity stamped =
          some target := by
        rw [accounted.klinedBySlash, HubCore.klinedBySlash, sameWords]
        exact named
      rw [HubCore.klinedBySlash, sameWords] at again
      simp only [HubCore.klinedByCommand] at again
      split at again
      · rename_i word token rest
        split at again
        · rename_i accepted
          obtain ⟨operator, add⟩ := accepted
          have resolved : ready.core.resolveTargetOrHash token =
              .ok target := by
            cases resolution : ready.core.resolveTargetOrHash token with
            | error reason => simp [resolution, Except.toOption] at again
            | ok found => simpa [resolution, Except.toOption] using again
          have ran : ready.handleSlashCommand linkId identity stamped =
              some (((ready.recordKline target (some linkId)).pushNotice
                linkId ("kline added for " ++ hexEncode target.val)
                none).dismissIdentity target) := by
            simp [HubTurn.handleSlashCommand, sameWords, HubTurn.cmdKline,
              operator, add, HubTurn.withTarget, resolved]
          rw [HubCore.step, handled _ ran]
          exact dismissed _ here
        · cases again
      · cases again
    · cases named

/-- The links whose sessions an event ends have none afterwards. -/
theorem closing_step {core : HubCore} {input : HubInput} {link : LinkId}
    (closing : link ∈ core.closing input) :
    (core.step input).sessionIdentity link = none := by
  unfold HubCore.closing at closing
  split at closing
  · rename_i closed event
    have same : link = closed := List.mem_singleton.mp closing
    subst same
    rw [HubCore.step, HubCore.handle, event]
    simp only [HubTurn.handle, HubTurn.onLinkClosed,
      HubCore.sessionIdentity, HubTurn.closeSession_lookup, if_true]
    rfl
  · rename_i event
    rw [HubCore.step, HubCore.handle, event]
    simp only [HubTurn.handle, HubTurn.pingCycle, HubCore.sessionIdentity,
      HubTurn.reapLinks_lookup]
    have dead : link ∈ (HubTurn.deadLinks core input.ambient.instant).map
        Prod.fst := closing
    have gone : link ∈ (HubTurn.deadLinks
        (core.turn input.ambient).core
        (core.turn input.ambient).ambient.instant).map Prod.fst := dead
    rw [if_pos gone]
    rfl
  · split at closing
    · cases closing
    · rename_i target klined
      exact klined_step klined ((core.mem_linksForIdentity target link).mp closing)

/-! ## The condition -/

omit [UnicodeTables] [HubCrypto] in
theorem lawfulBEq_linkId : LawfulBEq LinkId :=
  inferInstance

attribute [local instance] lawfulBEq_linkId in
/-- A link that is in the index stays there, unless all links of the identity
go away with it. -/
def HubCore.KeepsIndex (core : HubCore) (input : ServiceInput) : Prop :=
  match input.input.event with
  | .linkIdentified link identity =>
      ((core.sessionIdentity link).all fun known =>
        (decide (known = identity) && !decide (identity ∈ core.klines)) ||
          core.byIdentity.lookup known != some link) = true
  | _ =>
      ∀ link ∈ core.closing input.input,
        ((core.sessionIdentity link).all fun identity =>
          core.byIdentity.lookup identity != some link ||
            (core.linksForIdentity identity).all fun other =>
              decide (other ∈ core.closing input.input)) = true

instance (core : HubCore) (input : ServiceInput) :
    Decidable (core.KeepsIndex input) := by
  rcases input with ⟨⟨ambient, event⟩, fails⟩
  cases event <;> dsimp only [HubCore.KeepsIndex] <;> infer_instance

omit [HubCrypto] in
/-- Along the event, what is closed is closed together. -/
theorem HubCore.KeepsIndex.closes {core : HubCore} {input : ServiceInput}
    (keeps : core.KeepsIndex input) (unbound : ∀ link identity,
      input.input.event ≠ .linkIdentified link identity)
    {link other : LinkId} {identity : IdentityHash} (closing : link ∈ core.closing input.input)
    (proved : core.sessionIdentity link = some identity)
    (entry : core.byIdentity.lookup identity = some link)
    (same : core.sessionIdentity other = some identity) :
    other ∈ core.closing input.input := by
  unfold HubCore.KeepsIndex at keeps
  split at keeps
  · rename_i bound known event
    exact absurd event (unbound bound known)
  · have each := keeps link closing
    simp only [proved, entry, Option.all_some, bne_self_eq_false,
      Bool.false_or, List.all_eq_true, decide_eq_true_eq] at each
    exact each other ((core.mem_linksForIdentity identity other).mpr same)

/-! ## Runs -/

/-- The roll while the links that an event closes go away one by one. -/
structure Shedding (doomed : LinkId → Prop) (start roll : HubRoll) :
    Prop where
  indexed : roll.Indexed doomed
  identity : ∀ link identity, roll.identity link = some identity →
    start.identity link = some identity
  index : ∀ identity link, roll.index identity = some link → start.index identity = some link

omit [UnicodeTables] [HubCrypto] in
theorem Shedding.apply {doomed : LinkId → Prop} {start roll : HubRoll}
    (shedding : Shedding doomed start roll) {op : HubRollOp}
    (unbound : ∀ link identity, op ≠ .bind link identity)
    (keeps : Roll.KeepsIndex doomed roll op) :
    Shedding doomed start (roll.apply op) :=
  ⟨Roll.indexed_apply shedding.indexed keeps,
    fun link identity proved => shedding.identity link identity
      (Roll.identity_of_not_bind unbound proved),
    fun identity link entry => shedding.index identity link
      (Roll.index_of_not_bind unbound entry)⟩

theorem shedding_step {core : HubCore} {input : ServiceInput}
    (indexed : core.roll.Indexed fun _ => False) (keeps : core.KeepsIndex input)
    (unbound : ∀ link identity, input.input.event ≠ .linkIdentified link identity) :
    Shedding (· ∈ core.closing input.input) core.roll
      (core.step input.input).roll := by
  have start : Shedding (· ∈ core.closing input.input) core.roll core.roll :=
    ⟨indexed.weaken _, fun _ _ => id, fun _ _ => id⟩
  refine @roll_step_induct _ _
    (Shedding (· ∈ core.closing input.input) core.roll) core input.input
    start (fun link event => ?_)
    (fun link identity event _ => absurd event (unbound link identity))
    (fun link identity event _ => absurd event (unbound link identity))
    (fun roll op shedding permitted allowed => ?_)
  · exact start.apply (fun _ _ equal => by cases equal) trivial
  · refine shedding.apply (fun link identity equal => ?_) ?_
    · subst equal
      exact permitted
    · cases op with
      | close link =>
          intro identity entry other apart proved
          have before : core.roll.identity link = some identity :=
            shedding.identity link identity (shedding.indexed.sound identity link entry).2
          exact keeps.closes unbound permitted before
            (shedding.index identity link entry)
            (shedding.identity other identity proved)
      | refuse link => exact False.elim permitted
      | bind link identity => exact False.elim permitted
      | _ => trivial

theorem indexed_step {core : HubCore} {input : ServiceInput}
    (indexed : core.roll.Indexed fun _ => False) (keeps : core.KeepsIndex input) :
    (core.step input.input).roll.Indexed fun _ => False := by
  by_cases identified : ∃ link identity, input.input.event = .linkIdentified link identity
  · obtain ⟨link, identity, event⟩ := identified
    have spared : ∀ known, core.roll.identity link = some known →
        (known = identity ∧ ¬ identity ∈ core.klines) ∨
          core.roll.index known ≠ some link := by
      intro known proved
      have same : core.sessionIdentity link = some known := proved
      change _ ∨ core.byIdentity.lookup known ≠ some link
      simpa [HubCore.KeepsIndex, event, same] using keeps
    by_cases klined : identity ∈ core.klines
    · rw [step_linkIdentified_refused event klined]
      refine Roll.indexed_apply indexed fun known proved => ?_
      rcases spared known proved with ⟨-, welcome⟩ | unlisted
      · exact absurd klined welcome
      · exact unlisted
    · rw [step_linkIdentified_bound event klined]
      refine Roll.indexed_apply indexed fun known apart proved => ?_
      rcases spared known proved with ⟨same, -⟩ | unlisted
      · exact absurd same apart
      · exact unlisted
  · have shedding := shedding_step indexed keeps fun link identity event =>
      identified ⟨link, identity, event⟩
    exact shedding.indexed.settled fun link closing => closing_step closing

theorem indexed_serve {core : HubCore} {input : ServiceInput}
    (indexed : core.roll.Indexed fun _ => False) (keeps : core.KeepsIndex input) :
    (core.serve input).roll.Indexed fun _ => False := by
  rw [roll_serve]
  exact indexed_step indexed keeps

omit [UnicodeTables] [HubCrypto] in
theorem Unattended.indexed {core : HubCore} (unattended : Unattended core) :
    core.roll.Indexed fun _ => False := by
  refine ⟨fun identity link entry => ?_, fun link identity proved _ => ?_⟩
  · have listed : core.byIdentity.lookup identity = some link := entry
    rw [unattended.byIdentity] at listed
    cases listed
  · have known : core.sessionIdentity link = some identity := proved
    rw [HubCore.sessionIdentity, unattended.no_session link] at known
    cases known

/-- The index is right in every state of a run in which no link leaves it
while its identity keeps another, and no link in it is identified as somebody
else; whoever is connected is reached there. -/
theorem directlyIndexed_run (config : ChannelHubConfig)
    (hubHash : IdentityHash) (klines : FiniteSet IdentityHash)
    (admission : AdmissionState) (pepper : Bytes 32)
    (restored : List HubRoomRow) (ambient : Ambient) (inputs : List ServiceInput)
    (keeps : Along HubCore.serve HubCore.KeepsIndex
      (HubCore.new config hubHash klines admission pepper restored ambient)
      inputs) :
    (runFrom HubCore.serve
      (HubCore.new config hubHash klines admission pepper restored ambient)
      inputs).DirectlyIndexed ∧
    (runFrom HubCore.serve
      (HubCore.new config hubHash klines admission pepper restored ambient)
      inputs).ReachesDirectly := by
  have indexed : (runFrom HubCore.serve
      (HubCore.new config hubHash klines admission pepper restored ambient)
      inputs).roll.Indexed fun _ => False :=
    invariant_runFrom (fun core => core.roll.Indexed fun _ => False)
      (fun _ _ => indexed_serve)
      (unattended_new config hubHash klines admission pepper restored ambient).indexed keeps
  have direct := (directlyIndexed_iff _).mpr indexed
  exact ⟨direct, direct.reaches⟩

end Steps

section Samples

attribute [local instance] asciiTables sampleCrypto

/-- Alice on two links, the second of which goes away. -/
def halfClosed : List ServiceInput :=
  [served (.linkIdentified linkOne alice),
    served (.linkIdentified linkTwo alice),
    served (.linkClosed linkTwo)]

/-- An identity whose last identified link is closed is not found any more on
the link that it keeps, so an invite to it is sent to nobody. -/
theorem closedIndex_not_reached :
    ¬ ((runFrom HubCore.serve (sampleHub []) halfClosed).DirectlyIndexed ∧
      (runFrom HubCore.serve (sampleHub []) halfClosed).ReachesDirectly) := by
  rintro ⟨indexed, -⟩
  have proved : (runFrom HubCore.serve (sampleHub [])
      halfClosed).sessionIdentity linkOne = some alice := by
    decide +kernel
  have found := indexed.complete linkOne alice proved
  have lost : ((runFrom HubCore.serve (sampleHub [])
      halfClosed).byIdentity.lookup alice).isSome = false := by
    decide +kernel
  rw [lost] at found
  cases found

/-- A run in which the older of two links goes away. -/
theorem directlyIndexed_olderClosed :
    (runFrom HubCore.serve (sampleHub [])
      [served (.linkIdentified linkOne alice),
        served (.linkIdentified linkTwo alice),
        served (.linkClosed linkOne)]).DirectlyIndexed ∧
    (runFrom HubCore.serve (sampleHub [])
      [served (.linkIdentified linkOne alice),
        served (.linkIdentified linkTwo alice),
        served (.linkClosed linkOne)]).ReachesDirectly :=
  directlyIndexed_run _ _ _ _ _ _ _ _ (by decide +kernel)

end Samples

end Ratspeak
