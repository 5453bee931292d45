import Ratspeak.Hub.Frames

/-!
# Banned identities

Whoever is banned from a room has no link in it, and whoever is banned from
the hub has no session.  Both hold in every state that a hub reaches, unless a
link that is in a room is identified as an identity that is banned there.
While they hold, nothing that is said in a room comes from or goes to an
identity that is banned from it.
-/

namespace Ratspeak

open Library

/-! ## Moves -/

namespace HubTurn

theorem reseats_of_announces {before after : HubTurn}
    (answers : Announces before after) : Reseats before after := by
  obtain ⟨sends, plain, rfl⟩ := answers
  exact reseats_pushAll before fun send member =>
    (plain send member).administrative

theorem reseats_fanOut_core (turn : HubTurn) (room : HubRoom) (envelope : Envelope) :
    (turn.fanOut room envelope).core = turn.core :=
  pushAll_core _ _

theorem klines_dropIfEmpty (turn : HubTurn) (roomName : String) :
    (turn.dropIfEmpty roomName).core.klines = turn.core.klines := by
  unfold dropIfEmpty
  split
  · rfl
  · split
    · rfl
    · rfl

end HubTurn

/-- A move that bans an identity from the hub dismisses it; any other move
bans nobody from the hub. -/
theorem Move.klines {limits : Limits} {before after : HubTurn}
    (move : Move limits before after) :
    (∀ identity, identity ∈ after.core.klines → identity ∈ before.core.klines) ∨
    ∃ (announced : HubTurn) (target : IdentityHash)
        (origin : Option LinkId),
      after = announced.dismissIdentity target ∧
        announced.core = (before.recordKline target origin).core := by
  have same : after.core.klines = before.core.klines →
      (∀ identity, identity ∈ after.core.klines → identity ∈ before.core.klines) ∨
      ∃ (announced : HubTurn) (target : IdentityHash)
          (origin : Option LinkId),
        after = announced.dismissIdentity target ∧
          announced.core = (before.recordKline target origin).core := by
    intro equal
    exact Or.inl fun identity member => equal ▸ member
  cases move with
  | reply plain => exact same rfl
  | relay found scope content clear => exact same (by rw [HubTurn.reseats_fanOut_core])
  | tend seats => exact same rfl
  | note => exact same rfl
  | retouch rooms => exact same rfl
  | welcome permitted => exact same rfl
  | found named absent empty noBans ephemeral clean storable => exact same rfl
  | enter permitted live identified welcomed held clear =>
      exact same (before.reseats_enterRoom _ _ _).core.klines
  | leave permitted identified =>
      exact same (before.reseats_leaveRoom _ _ _).core.klines
  | expel permitted =>
      exact same (before.reseats_ejectIdentityFromRoom _ _ _).core.klines
  | ban permitted =>
      exact same (((before.reseats_modifyRoom _ _).trans
        (HubTurn.reseats_ejectIdentityFromRoom _ _ _ _)).trans
        (HubTurn.reseats_persistRoom _ _ _)).core.klines
  | close permitted => exact same (before.reseats_closeSession _ _).core.klines
  | kline permitted answers =>
      rename_i announced target origin
      exact Or.inr ⟨announced, target, origin, rfl, answers.core_eq⟩
  | unkline =>
      refine Or.inl fun identity member => ?_
      exact ((FiniteSet.mem_erase _ _ _).mp member).2
  | restateKlines => exact same rfl
  | amend amends answers =>
      refine same ((HubTurn.reseats_persistRoom _ _ _).core.klines.trans ?_)
      rw [answers.core_eq]
      rfl
  | register change pending present registers others settled answers =>
      refine same ((HubTurn.reseats_persistRoom _ _ _).core.klines.trans ?_)
      rw [answers.core_eq]
      rfl
  | unregister change pending unregisters others settled answers drops =>
      subst drops
      refine same ((HubTurn.klines_dropIfEmpty _ _).trans ?_)
      rw [answers.core_eq]
      rfl
  | restate => exact same (before.reseats_persistRoom _ _).core.klines
  | retire empty => exact same rfl
  | drain =>
      refine same ?_
      rw [HubTurn.drainRemovals, HubTurn.pushAll_core]
      rfl
  | lesserWrite lesser => exact same rfl

/-! ## Identities banned from the hub -/

/-- No session belongs to an identity that is banned from the hub. -/
def HubCore.Unlisted (core : HubCore) : Prop :=
  ∀ link identity, core.sessionIdentity link = some identity → ¬ identity ∈ core.klines

/-- The operations of an event do not bind links. -/
def Limits.Unbinding (limits : Limits) : Prop :=
  (∀ link identity, ¬ limits.permits (.bind link identity)) ∧
    ∀ banned, limits.permits (.relax banned)

theorem unbinding_limitsOf [UnicodeTables] [HubCrypto] (core : HubCore)
    (input : HubInput) : (core.limitsOf input).Unbinding :=
  ⟨fun _ _ => id, fun _ => trivial⟩

theorem Move.identity {limits : Limits} (unbinding : limits.Unbinding)
    {before after : HubTurn} (move : Move limits before after)
    {link : LinkId} {identity : IdentityHash}
    (proved : after.core.sessionIdentity link = some identity) :
    before.core.sessionIdentity link = some identity := by
  have traced : Traced limits.permits before after :=
    (traced_start before).move unbinding.2 move
  exact traced.path.identity unbinding.1 proved

theorem unlisted_move {limits : Limits} (unbinding : limits.Unbinding)
    {before after : HubTurn} (move : Move limits before after)
    (unlisted : before.core.Unlisted) : after.core.Unlisted := by
  intro link identity proved
  have earlier : before.core.sessionIdentity link = some identity :=
    move.identity unbinding proved
  rcases move.klines with fewer | ⟨announced, target, origin, rfl, recorded⟩
  · exact fun banned => unlisted link identity earlier (fewer identity banned)
  · have klines : announced.core.klines =
        before.core.klines.insert target := by
      rw [recorded]
      rfl
    intro banned
    have kept : ((announced.dismissIdentity target).core).klines =
        announced.core.klines :=
      (HubTurn.reseats_foldl HubTurn.reseats_dismissLink _ _).core.klines
    rw [kept, klines, FiniteSet.mem_insert] at banned
    rcases banned with rfl | banned
    · rw [HubTurn.sessionIdentity_dismissIdentity] at proved
      split at proved
      · cases proved
      · rename_i other
        exact other proved
    · exact unlisted link identity earlier banned

/-! ## Messages -/

/-- A message that somebody sent into a room comes from and goes to identities
that are not banned from the room when it is sent. -/
def Sent.Fair (sent : Sent) : Prop :=
  match sent.send with
  | .envelope target content =>
      ∀ roomName, content.isRoomMessage sent.core.hubHash roomName →
        ¬ sent.core.roll.banned roomName content.source ∧
          ∀ identity, sent.core.sessionIdentity target = some identity →
            ¬ sent.core.roll.banned roomName identity
  | _ => True

theorem Sent.Administrative.fair {sent : Sent}
    (administrative : sent.Administrative) : sent.Fair := by
  obtain ⟨send, core⟩ := sent
  cases send with
  | envelope target content =>
      intro roomName message
      exact absurd message (administrative roomName)
  | resource target content payload => trivial
  | close target => trivial
  | persist persist => trivial

namespace HubTurn

theorem Reseats.fair {before after : HubTurn}
    (reseats : Reseats before after) : Sends Sent.Fair before after :=
  reseats.sends.mono fun _ administrative => administrative.fair

/-- What is relayed into a room without banned members is fair. -/
theorem sends_fanOut {turn : HubTurn} {roomName : String} {room : HubRoom}
    {envelope : Envelope} (lawful : turn.core.roll.Lawful)
    (found : turn.core.rooms.lookup roomName = some room)
    (scope : envelope.room = some roomName) (clear : ¬ envelope.source ∈ room.bans) :
    Sends Sent.Fair turn (turn.fanOut room envelope) := by
  refine sends_pushAll turn fun send member => ?_
  obtain ⟨target, inside, rfl⟩ := List.mem_map.mp member
  rintro name ⟨named, -⟩
  have same : name = roomName := Option.some.inj (named.symm.trans scope)
  subst same
  refine ⟨?_, fun identity proved banned => ?_⟩
  · rintro ⟨held, lookup, banned⟩
    have equal : held = room := Option.some.inj (lookup.symm.trans found)
    exact clear (equal ▸ banned)
  · exact lawful name target identity ⟨room, found, inside⟩ proved banned

theorem sends_dropIfEmpty {holds : Sent → Prop} (turn : HubTurn)
    (roomName : String) : Sends holds turn (turn.dropIfEmpty roomName) := by
  unfold dropIfEmpty
  split
  · exact sends_of_eq rfl
  · split
    · exact sends_of_eq rfl
    · exact sends_of_eq rfl

end HubTurn

/-- What holds of all that is administrative and of what is relayed holds of
every send of a move. -/
theorem Move.sends {holds : Sent → Prop} {limits : Limits} {before after : HubTurn}
    (administrative : ∀ sent : Sent, sent.Administrative → holds sent)
    (relayed : ∀ roomName room envelope,
      before.core.rooms.lookup roomName = some room →
        envelope.room = some roomName → ¬ envelope.source ∈ room.bans →
          limits.relays roomName envelope →
            HubTurn.Sends holds before (before.fanOut room envelope))
    (move : Move limits before after) :
    HubTurn.Sends holds before after := by
  have reseated {first second : HubTurn}
      (reseats : HubTurn.Reseats first second) :
      HubTurn.Sends holds first second :=
    reseats.sends.mono administrative
  have told {first second : HubTurn}
      (answers : HubTurn.Announces first second) :
      HubTurn.Sends holds first second :=
    reseated (HubTurn.reseats_of_announces answers)
  have writes {turn changed : HubTurn} (persist : HubPersist)
      (same : changed.out = turn.out) :
      HubTurn.Sends holds turn (changed.push (.persist persist)) :=
    (HubTurn.sends_of_eq same).trans (HubTurn.sends_push (administrative _ trivial))
  cases move with
  | reply plain => exact HubTurn.sends_push (administrative _ plain.administrative)
  | relay found scope content clear allowed =>
      exact relayed _ _ _ found scope clear allowed
  | tend seats => exact HubTurn.sends_of_eq rfl
  | note => exact HubTurn.sends_of_eq rfl
  | retouch rooms => exact HubTurn.sends_of_eq rfl
  | welcome permitted => exact HubTurn.sends_of_eq rfl
  | found named absent empty noBans ephemeral clean storable =>
      exact HubTurn.sends_of_eq rfl
  | enter permitted live identified welcomed held clear =>
      exact reseated (before.reseats_enterRoom _ _ _)
  | leave permitted identified => exact reseated (before.reseats_leaveRoom _ _ _)
  | expel permitted => exact reseated (before.reseats_ejectIdentityFromRoom _ _ _)
  | ban permitted =>
      exact reseated (((before.reseats_modifyRoom _ _).trans
        (HubTurn.reseats_ejectIdentityFromRoom _ _ _ _)).trans
        (HubTurn.reseats_persistRoom _ _ _))
  | close permitted => exact reseated (before.reseats_closeSession _ _)
  | kline permitted answers =>
      rename_i announced target origin
      have recorded : HubTurn.Sends holds before
          (before.recordKline target origin) :=
        writes _ rfl
      have dismissed : HubTurn.Reseats announced
          (announced.dismissIdentity target) :=
        HubTurn.reseats_foldl HubTurn.reseats_dismissLink _ _
      exact (recorded.trans (told answers)).trans (reseated dismissed)
  | unkline => exact writes _ rfl
  | restateKlines => exact writes _ rfl
  | amend amends answers =>
      exact ((reseated (before.reseats_modifyRoom _ _)).trans
        (told answers)).trans (reseated (HubTurn.reseats_persistRoom _ _ _))
  | register change pending present registers others settled answers =>
      rename_i announced roomName origin
      have changed : HubTurn.Sends holds before
          ((before.modifyRoom roomName change).mapCore fun core =>
            { core with pendingRemovals := pending }) :=
        HubTurn.sends_of_eq rfl
      exact (changed.trans (told answers)).trans (reseated (HubTurn.reseats_persistRoom _ _ _))
  | unregister change pending unregisters others settled answers drops =>
      rename_i announced dropped roomName origin scope roomTokens tokensDrawn
      have changed : HubTurn.Sends holds before
          ((before.modifyRoom roomName change).mapCore fun core =>
            { core with
              roomTokens := roomTokens
              tokensDrawn := tokensDrawn }) :=
        HubTurn.sends_of_eq rfl
      have forgets : HubTurn.Sends holds (announced.dropIfEmpty roomName)
          dropped := by
        rw [drops]
        exact HubTurn.sends_of_eq rfl
      exact (((changed.trans (told answers)).trans
        (announced.sends_dropIfEmpty roomName)).trans forgets).trans
        (writes _ rfl)
  | restate => exact reseated (before.reseats_persistRoom _ _)
  | retire empty => exact writes _ rfl
  | drain =>
      have cleared : HubTurn.Sends holds before
          (before.mapCore fun core => { core with pendingRemovals := ∅ }) :=
        HubTurn.sends_of_eq rfl
      refine cleared.trans (HubTurn.sends_pushAll _ fun send member => ?_)
      obtain ⟨roomName, -, rfl⟩ := List.mem_map.mp member
      exact administrative _ trivial
  | lesserWrite lesser => exact writes _ rfl

/-- Every move sends fairly while no member of a room is banned from it. -/
theorem Move.fair {limits : Limits} {before after : HubTurn}
    (move : Move limits before after) (lawful : before.core.roll.Lawful) :
    HubTurn.Sends Sent.Fair before after :=
  move.sends (fun _ administrative => administrative.fair)
    fun _ _ _ found scope clear _ =>
      HubTurn.sends_fanOut lawful found scope clear

theorem lawful_move {limits : Limits} (unbinding : limits.Unbinding)
    {before after : HubTurn} (move : Move limits before after)
    (lawful : before.core.roll.Lawful) : after.core.roll.Lawful := by
  have traced : Traced limits.permits before after :=
    (traced_start before).move unbinding.2 move
  refine traced.path.induct (fun roll op lawful permitted allowed => ?_) lawful
  refine Roll.lawful_apply lawful allowed fun link identity bound => ?_
  subst bound
  exact absurd permitted (unbinding.1 link identity)

/-! ## Links that prove an identity -/

namespace HubTurn

theorem reseats_openSession (turn : HubTurn) (linkId : LinkId) :
    Reseats turn (turn.openSession linkId) := by
  unfold openSession
  split
  · exact .refl turn
  · exact reseats_of_core ⟨_, _, _, _, _, _, rfl⟩ rfl rfl

theorem reseats_bindIdentity (turn : HubTurn) (linkId : LinkId) (identity : IdentityHash) :
    Reseats turn (turn.bindIdentity linkId identity) :=
  ((turn.reseats_openSession linkId).trans
    (reseats_modifySession _ linkId _)).trans
    (reseats_of_core ⟨_, _, _, _, _, _, rfl⟩ rfl rfl)

theorem reseats_refuseLink (turn : HubTurn) (linkId : LinkId) :
    Reseats turn (turn.refuseLink linkId) := by
  have told : Reseats turn (turn.pushError linkId "banned" none) :=
    turn.reseats_pushError linkId "banned" none
  have closing : Reseats (turn.pushError linkId "banned" none)
      ((turn.pushError linkId "banned" none).push (.close linkId)) :=
    reseats_push trivial
  exact (told.trans closing).trans (reseats_of_core ⟨_, _, _, _, _, _, rfl⟩ rfl rfl)

theorem reseats_onLinkIdentified (turn : HubTurn) (linkId : LinkId) (identity : IdentityHash) :
    Reseats turn (turn.onLinkIdentified linkId identity) := by
  unfold onLinkIdentified
  split
  · exact turn.reseats_refuseLink linkId
  · exact turn.reseats_bindIdentity linkId identity

end HubTurn

/-! ## Runs -/

/-- No member of a room belongs to an identity that is banned from the room,
and no session to one that is banned from the hub. -/
structure HubCore.BansHold (core : HubCore) : Prop where
  absent : ∀ roomName room link identity,
    core.rooms.lookup roomName = some room → link ∈ room.members →
      core.sessionIdentity link = some identity → ¬ identity ∈ room.bans
  unlisted : ∀ link identity, core.sessionIdentity link = some identity →
    ¬ identity ∈ core.klines

theorem HubCore.BansHold.lawful {core : HubCore} (holds : core.BansHold) :
    core.roll.Lawful := by
  rintro roomName link identity ⟨room, held, inside⟩ proved ⟨found, foundHeld, banned⟩
  have equal : found = room := Option.some.inj (foundHeld.symm.trans held)
  exact holds.absent roomName room link identity held inside proved (equal ▸ banned)

theorem bansHold_of_lawful {core : HubCore} (lawful : core.roll.Lawful)
    (unlisted : core.Unlisted) : core.BansHold :=
  ⟨fun roomName room link identity held inside proved banned =>
    lawful roomName link identity ⟨room, held, inside⟩ proved ⟨room, held, banned⟩, unlisted⟩

/-- The link that an event identifies, and as whom. -/
def HubEvent.identifies : HubEvent → Option (LinkId × IdentityHash)
  | .linkIdentified link identity => some (link, identity)
  | _ => none

/-- A link is identified only as an identity that is banned from none of the
rooms the link is in, or that the hub turns away. -/
def HubCore.RebindsUnbanned (core : HubCore) (input : ServiceInput) : Prop :=
  (input.input.event.identifies.all fun (link, identity) =>
    decide (identity ∈ core.klines) ||
      (FiniteMap.bindings core.rooms).all fun entry =>
        !(decide (link ∈ entry.2.members) &&
          decide (identity ∈ entry.2.bans))) = true

instance (core : HubCore) (input : ServiceInput) :
    Decidable (core.RebindsUnbanned input) :=
  inferInstanceAs (Decidable (_ = true))

theorem HubCore.RebindsUnbanned.unbanned {core : HubCore}
    {input : ServiceInput} (rebinds : core.RebindsUnbanned input)
    {link : LinkId} {identity : IdentityHash}
    (event : input.input.event = .linkIdentified link identity)
    (welcome : ¬ identity ∈ core.klines) {roomName : String}
    (member : core.roll.members roomName link) :
    ¬ core.roll.banned roomName identity := by
  simp only [HubCore.RebindsUnbanned, event, HubEvent.identifies,
    Option.all_some, Bool.or_eq_true, decide_eq_true_eq, welcome, false_or]
    at rebinds
  obtain ⟨room, held, inside⟩ := member
  rintro ⟨found, foundHeld, banned⟩
  have equal : found = room := Option.some.inj (foundHeld.symm.trans held)
  subst equal
  have each := List.all_eq_true.mp rebinds (roomName, found)
    ((FiniteMap.mem_bindings_iff _ _ _).mpr held)
  simp [inside, banned] at each

section Runs

variable [UnicodeTables] [HubCrypto]

/-- What is said in rooms while the input is handled is fair. -/
def HubCore.SendsFairly (core : HubCore) (input : ServiceInput) : Prop :=
  ∀ sent ∈ (core.handle input.input).out, sent.Fair

theorem lawful_step {core : HubCore} {input : ServiceInput}
    (lawful : core.roll.Lawful) (rebinds : core.RebindsUnbanned input) :
    (core.step input.input).roll.Lawful := by
  refine roll_step_induct lawful (fun link event => ?_)
    (fun link identity event welcome => ?_)
    (fun link identity event klined => ?_)
    (fun roll op lawful permitted allowed => ?_)
  · exact Roll.lawful_apply lawful trivial fun _ _ equal => by
      cases equal
  · refine Roll.lawful_apply lawful trivial fun _ _ equal => ?_
    cases equal
    exact fun roomName => rebinds.unbanned event welcome
  · exact Roll.lawful_apply lawful trivial fun _ _ equal => by
      cases equal
  · refine Roll.lawful_apply lawful allowed fun _ _ equal => ?_
    subst equal
    exact False.elim permitted

/-- A link is there, or proves an identity, or the event is a sequence of
moves. -/
theorem links_or_moves (core : HubCore) (input : HubInput) :
    (∃ link, core.handle input = (core.turn input.ambient).openSession link) ∨
    (∃ link identity, core.handle input =
      (core.turn input.ambient).onLinkIdentified link identity) ∨
    Moves (core.limitsOf input) (core.turn input.ambient)
      (core.handle input) := by
  by_cases seated : ∃ link, input.event = .linkEstablished link
  · obtain ⟨link, event⟩ := seated
    refine Or.inl ⟨link, ?_⟩
    rw [HubCore.handle, event]
    rfl
  · by_cases identified : ∃ link identity,
        input.event = .linkIdentified link identity
    · obtain ⟨link, identity, event⟩ := identified
      refine Or.inr (Or.inl ⟨link, identity, ?_⟩)
      rw [HubCore.handle, event]
      rfl
    · exact Or.inr (Or.inr (HubTurn.moves_handle
        (fun link event => seated ⟨link, event⟩)
        fun link identity event => identified ⟨link, identity, event⟩))

/-- An event of a link reseats it; any other event is a sequence of moves. -/
theorem reseats_or_moves (core : HubCore) (input : HubInput) :
    HubTurn.Reseats (core.turn input.ambient) (core.handle input) ∨
      Moves (core.limitsOf input) (core.turn input.ambient)
        (core.handle input) := by
  rcases links_or_moves core input with ⟨link, opens⟩ | ⟨link, identity, binds⟩ | moves
  · rw [opens]
    exact Or.inl (HubTurn.reseats_openSession _ link)
  · rw [binds]
    exact Or.inl (HubTurn.reseats_onLinkIdentified _ link identity)
  · exact Or.inr moves

/-- An identity that a link has after an event it had before, or has just
proved while it was not banned from the hub. -/
theorem identity_of_reseats {core : HubCore} {input : HubInput}
    {link : LinkId} {identity : IdentityHash}
    (proved : (core.step input).sessionIdentity link = some identity) :
    core.sessionIdentity link = some identity ∨
      ¬ identity ∈ core.klines := by
  have induction := @roll_step_induct _ _
    (fun roll => roll.identity link = some identity →
      core.sessionIdentity link = some identity ∨ ¬ identity ∈ core.klines)
    core input Or.inl
  refine induction (fun opened event => ?_)
    (fun bound known event welcome => ?_)
    (fun refused known event klined => ?_)
    (fun roll op before permitted allowed => ?_) proved
  · exact fun after => Or.inl (Roll.identity_of_not_bind (fun _ _ equal => by
      cases equal) after)
  · intro after
    by_cases same : link = bound
    · subst same
      have equal : known = identity := by
        simpa [Roll.apply] using after
      exact Or.inr (equal ▸ welcome)
    · refine Or.inl ?_
      have kept : core.roll.identity link = some identity := by
        simpa [Roll.apply, same] using after
      exact kept
  · exact fun after => Or.inl (Roll.identity_of_not_bind (fun _ _ equal => by
      cases equal) after)
  · refine fun after => before (Roll.identity_of_not_bind ?_ after)
    rintro other known rfl
    exact permitted

theorem unlisted_step {core : HubCore} (unlisted : core.Unlisted)
    (input : HubInput) : (core.step input).Unlisted := by
  rcases reseats_or_moves core input with reseats | moves
  · intro link identity proved
    have klines : (core.step input).klines = core.klines :=
      reseats.core.klines
    rw [klines]
    rcases identity_of_reseats proved with earlier | welcome
    · exact unlisted link identity earlier
    · exact welcome
  · exact moves.induct (fun _ _ move unlisted =>
      unlisted_move (unbinding_limitsOf core input) move unlisted) unlisted

theorem fair_step {core : HubCore} (lawful : core.roll.Lawful)
    (input : ServiceInput) : core.SendsFairly input := by
  have silent : ∀ sent ∈ (core.turn input.input.ambient).out, sent.Fair :=
    fun sent member => absurd member List.not_mem_nil
  rcases reseats_or_moves core input.input with reseats | moves
  · exact reseats.fair.all silent
  · have kept : ∀ before after : HubTurn,
        Move (core.limitsOf input.input) before after →
          (before.core.roll.Lawful ∧ ∀ sent ∈ before.out, sent.Fair) →
          after.core.roll.Lawful ∧ ∀ sent ∈ after.out, sent.Fair := by
      rintro before after move ⟨lawful, fair⟩
      exact ⟨lawful_move (unbinding_limitsOf core input.input) move lawful,
        (move.fair lawful).all fair⟩
    exact (moves.induct kept ⟨lawful, silent⟩).2

omit [UnicodeTables] [HubCrypto] in
theorem klines_notePersistFailed (core : HubCore) (op : HubRoomOp) :
    (core.notePersistFailed op).klines = core.klines := by
  cases op with
  | upsert row => rfl
  | touched roomName lastUsed => rfl
  | removed roomName => rfl
  | replaceKlines subjects => rfl
  | gcInvites before => rfl

theorem klines_serve (core : HubCore) (input : ServiceInput) :
    (core.serve input).klines = (core.step input.input).klines := by
  unfold HubCore.serve
  generalize core.step input.input = after
  induction core.written input generalizing after with
  | nil => rfl
  | cons outcome rest ih =>
      rw [List.foldl_cons, ih]
      split
      · rfl
      · exact klines_notePersistFailed after outcome.1

theorem bansHold_serve {core : HubCore} {input : ServiceInput}
    (holds : core.BansHold) (rebinds : core.RebindsUnbanned input) :
    (core.serve input).BansHold := by
  have sameRoll := roll_serve core input
  refine bansHold_of_lawful ?_ fun link identity proved => ?_
  · rw [sameRoll]
    exact lawful_step holds.lawful rebinds
  · have earlier : (core.step input.input).sessionIdentity link =
        some identity :=
      (congrArg (fun roll : HubRoll => roll.identity link)
        sameRoll).symm.trans proved
    rw [klines_serve]
    exact unlisted_step holds.unlisted input.input link identity earlier

omit [UnicodeTables] [HubCrypto] in
theorem Unattended.bansHold {core : HubCore}
    (unattended : Unattended core) : core.BansHold := by
  have nobody : ∀ link, core.sessionIdentity link = none := by
    intro link
    rw [HubCore.sessionIdentity, unattended.no_session link]
    rfl
  refine ⟨fun roomName room link identity held inside proved => ?_,
    fun link identity proved => ?_⟩
  · rw [nobody link] at proved
    cases proved
  · rw [nobody link] at proved
    cases proved

/-- Bans hold in every state of a run in which no link is identified as an
identity that is banned from a room of the link, and everything that is said
in rooms during such a run is fair. -/
theorem bansHold_run (config : ChannelHubConfig) (hubHash : IdentityHash)
    (klines : FiniteSet IdentityHash) (admission : AdmissionState)
    (pepper : Bytes 32) (restored : List HubRoomRow) (ambient : Ambient)
    (inputs : List ServiceInput) (unbanned : Along HubCore.serve HubCore.RebindsUnbanned
      (HubCore.new config hubHash klines admission pepper restored ambient)
      inputs) :
    (runFrom HubCore.serve
      (HubCore.new config hubHash klines admission pepper restored ambient)
      inputs).BansHold ∧
    Along HubCore.serve HubCore.SendsFairly
      (HubCore.new config hubHash klines admission pepper restored ambient)
      inputs := by
  have start : (HubCore.new config hubHash klines admission pepper restored
      ambient).BansHold :=
    (unattended_new config hubHash klines admission pepper restored ambient).bansHold
  have kept : ∀ core input, HubCore.BansHold core →
      core.RebindsUnbanned input → (core.serve input).BansHold :=
    fun core input => bansHold_serve
  have fair : ∀ core input, HubCore.BansHold core →
      core.RebindsUnbanned input → core.SendsFairly input :=
    fun core input holds _ => fair_step holds.lawful input
  exact ⟨invariant_runFrom HubCore.BansHold kept start unbanned,
    along_of_invariant HubCore.BansHold kept fair start unbanned⟩

end Runs

section Samples

attribute [local instance] asciiTables sampleCrypto

/-- The stored form of an open room from which one identity is banned. -/
def bannedRow (roomName : String) (banned : IdentityHash) : HubRoomRow where
  roomName := roomName
  topic := ""
  keySalt := ""
  keyMac := ""
  keyPepperId := ""
  moderated := false
  inviteOnly := false
  topicOpsOnly := false
  noOutsideMsgs := false
  isPrivate := false
  lastUsed := 0
  grants := [("ban", hexEncode banned.val, 0)]

/-- A hub that stores the room `r`, from which Bob is banned. -/
def banningHub : HubCore :=
  HubCore.new { serverOperators := [alice] } (Bytes.replicate 16 9) ∅
    (AdmissionState.new false 0) (Bytes.replicate 32 7) [bannedRow "r" bob]
    (ambientAt 0)

/-- A link in a room that is identified as an identity banned from the room
makes the banned identity a member. -/
theorem reboundMember_banned :
    ¬ (runFrom HubCore.serve banningHub
      (joining linkOne alice "r" ++
        [served (.linkIdentified linkOne bob)])).BansHold := by
  intro holds
  have inside : ((runFrom HubCore.serve banningHub
      (joining linkOne alice "r" ++
        [served (.linkIdentified linkOne bob)])).rooms.lookup "r").any
      (fun room => decide (linkOne ∈ room.members ∧ bob ∈ room.bans)) =
      true := by
    decide +kernel
  have proved : (runFrom HubCore.serve banningHub
      (joining linkOne alice "r" ++
        [served (.linkIdentified linkOne bob)])).sessionIdentity linkOne =
      some bob := by
    decide +kernel
  obtain ⟨room, held, both⟩ := (Option.any_eq_true _ _).mp inside
  obtain ⟨member, banned⟩ := of_decide_eq_true both
  exact holds.absent "r" room linkOne bob held member proved banned

/-- A run in which the banned identity is on a link of its own, and asks to
join. -/
theorem bansHold_refusedJoin :
    (runFrom HubCore.serve banningHub
      (joining linkOne alice "r" ++ joining linkTwo bob "r")).BansHold ∧
    Along HubCore.serve HubCore.SendsFairly banningHub
      (joining linkOne alice "r" ++ joining linkTwo bob "r") :=
  bansHold_run _ _ _ _ _ _ _ _ (by decide +kernel)

end Samples

end Ratspeak
