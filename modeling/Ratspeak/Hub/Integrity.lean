import Ratspeak.Hub.Coherence
import Ratspeak.Hub.Uploads
import Mathlib.Data.List.DropRight

/-!
# What is said in rooms

Whatever the hub relays into a room was said by a link that had proved an
identity and was welcomed, and that the room lets speak at that moment.  It
goes out under that identity.  No command is relayed, and an envelope only
once: its id is not among the last ones that were taken from the link since
the link has a session.
-/

namespace Ratspeak

open Library

/-! ## Sessions that last -/

/-- The session is the same as far as what it says is concerned. -/
structure HubSession.Lasts (earlier later : HubSession) : Prop where
  identity : later.identity = earlier.identity
  seenIds : later.seenIds = earlier.seenIds
  welcomed : earlier.welcomed = true → later.welcomed = true

theorem HubSession.Lasts.refl (session : HubSession) : session.Lasts session :=
  ⟨rfl, rfl, id⟩

/-- The sessions that are left were there before. -/
def HubCore.Lasts (before after : HubCore) : Prop :=
  ∀ link later, after.sessions.lookup link = some later →
    ∃ earlier, before.sessions.lookup link = some earlier ∧ earlier.Lasts later

namespace HubCore

theorem lasts_of_sessions {before after : HubCore}
    (same : after.sessions = before.sessions) : before.Lasts after := by
  intro link later live
  rw [same] at live
  exact ⟨later, live, .refl later⟩

theorem Lasts.refl (core : HubCore) : core.Lasts core :=
  lasts_of_sessions rfl

theorem Lasts.trans {first second third : HubCore}
    (one : first.Lasts second) (two : second.Lasts third) :
    first.Lasts third := by
  intro link later live
  obtain ⟨middle, middleLive, lasts⟩ := two link later live
  obtain ⟨earlier, earlierLive, lasted⟩ := one link middle middleLive
  exact ⟨earlier, earlierLive, lasts.identity.trans lasted.identity,
    lasts.seenIds.trans lasted.seenIds,
    fun welcomed => lasts.welcomed (lasted.welcomed welcomed)⟩

end HubCore

namespace HubTurn

theorem lasts_adjust {before after : HubCore} {linkId : LinkId}
    {change : HubSession → HubSession}
    (sessions : after.sessions = before.sessions.adjust linkId change)
    (same : ∀ session, HubSession.Lasts session (change session)) :
    before.Lasts after := by
  intro link later live
  rw [sessions, FiniteMap.lookup_adjust] at live
  split at live
  · rename_i isLink
    subst isLink
    obtain ⟨earlier, earlierLive, rfl⟩ := Option.map_eq_some_iff.mp live
    exact ⟨earlier, earlierLive, same earlier⟩
  · exact ⟨later, live, .refl later⟩

theorem lasts_modifySession (turn : HubTurn) (linkId : LinkId)
    {change : HubSession → HubSession}
    (same : ∀ session, HubSession.Lasts session (change session)) :
    turn.core.Lasts (turn.modifySession linkId change).core :=
  lasts_adjust rfl same

theorem lasts_persistRoom (turn : HubTurn) (roomName : String) (origin : Option LinkId) :
    turn.core.Lasts (turn.persistRoom roomName origin).core :=
  HubCore.lasts_of_sessions (turn.persistRoom_sessions roomName origin)

theorem lasts_ejectIdentityFromRoom (turn : HubTurn) (roomName : String)
    (target : IdentityHash) (reason : String) :
    turn.core.Lasts
      (turn.ejectIdentityFromRoom roomName target reason).core := by
  intro link later live
  rw [sessions_ejectIdentityFromRoom] at live
  split at live
  · obtain ⟨earlier, earlierLive, rfl⟩ := Option.map_eq_some_iff.mp live
    exact ⟨earlier, earlierLive, rfl, rfl, id⟩
  · exact ⟨later, live, .refl later⟩

theorem lasts_closeSession (turn : HubTurn) (linkId : LinkId) (reason : HubSessionCloseReason) :
    turn.core.Lasts (turn.closeSession linkId reason).core := by
  intro link later live
  rw [closeSession_lookup] at live
  split at live
  · cases live
  · exact ⟨later, live, .refl later⟩

theorem lasts_dismissIdentity (turn : HubTurn) (target : IdentityHash) :
    turn.core.Lasts (turn.dismissIdentity target).core := by
  intro link later live
  rw [dismissIdentity, dismissLinks_lookup] at live
  split at live
  · cases live
  · exact ⟨later, live, .refl later⟩

end HubTurn

/-- No move touches the window of ids of a session that stays, unless it may
record an id. -/
theorem Move.lasts {limits : Limits} (silent : ¬ limits.remembers)
    {before after : HubTurn} (move : Move limits before after) :
    before.core.Lasts after.core := by
  have told {first second : HubTurn}
      (answers : HubTurn.Announces first second) :
      first.core.Lasts second.core :=
    HubCore.lasts_of_sessions (by rw [answers.core_eq])
  cases move with
  | reply plain => exact .refl _
  | relay found scope content clear allowed =>
      rw [HubTurn.reseats_fanOut_core]
      exact .refl _
  | tend same unheard =>
      intro link later live
      have seat := same link
      have window := unheard silent link
      rw [show _ = some later from live] at seat window
      cases earlierLive : before.core.sessions.lookup link with
      | none =>
          rw [earlierLive] at seat
          cases seat
      | some earlier =>
          rw [earlierLive] at seat window
          cases seat with
          | some seat =>
              exact ⟨earlier, rfl, seat.1, Option.some.inj window,
                fun welcomed => seat.2.1.trans welcomed⟩
  | note => exact HubCore.lasts_of_sessions rfl
  | retouch rooms => exact HubCore.lasts_of_sessions rfl
  | welcome permitted =>
      refine before.lasts_modifySession _ fun _ => ?_
      exact ⟨rfl, rfl, fun _ => rfl⟩
  | found named absent empty noBans ephemeral clean storable leaseless =>
      exact HubCore.lasts_of_sessions rfl
  | enter permitted live identified welcomed held clear =>
      exact HubTurn.lasts_adjust
        (HubTurn.seated_enterRoom held _ _).sessions
        fun _ => ⟨rfl, rfl, id⟩
  | leave permitted identified =>
      rename_i roomName link identity
      obtain ⟨left, -, sessions, leaves⟩ :=
        before.departed_leaveRoom roomName link identity
      rw [leaves, HubTurn.push_core]
      exact HubTurn.lasts_adjust sessions fun _ => ⟨rfl, rfl, id⟩
  | expel permitted => exact before.lasts_ejectIdentityFromRoom _ _ _
  | ban permitted =>
      rename_i roomName reason target origin
      have banned : before.core.Lasts
          (before.modifyRoom roomName fun room =>
            { room with bans := room.bans.insert target }).core :=
        HubCore.lasts_of_sessions rfl
      exact (banned.trans (HubTurn.lasts_ejectIdentityFromRoom _ _ _ _)).trans
        (HubTurn.lasts_persistRoom _ _ _)
  | close permitted sudden => exact before.lasts_closeSession _ _
  | kline permitted answers =>
      rename_i announced target origin
      have recorded : before.core.Lasts
          (before.recordKline target origin).core :=
        HubCore.lasts_of_sessions rfl
      exact (recorded.trans (told answers)).trans (announced.lasts_dismissIdentity target)
  | unkline => exact HubCore.lasts_of_sessions rfl
  | restateKlines => exact HubCore.lasts_of_sessions rfl
  | amend amends answers =>
      rename_i announced roomName change origin
      have changed : before.core.Lasts
          (before.modifyRoom roomName change).core :=
        HubCore.lasts_of_sessions rfl
      exact (changed.trans (told answers)).trans (HubTurn.lasts_persistRoom _ _ _)
  | register change pending present registers others settled answers =>
      rename_i announced roomName origin
      have changed : before.core.Lasts
          ((before.modifyRoom roomName change).mapCore fun core =>
            { core with pendingRemovals := pending }).core :=
        HubCore.lasts_of_sessions rfl
      exact (changed.trans (told answers)).trans (HubTurn.lasts_persistRoom _ _ _)
  | unregister change pending unregisters others settled answers drops =>
      rename_i announced dropped roomName origin scope roomTokens tokensDrawn
      have changed : before.core.Lasts
          ((before.modifyRoom roomName change).mapCore fun core =>
            { core with
              roomTokens := roomTokens
              tokensDrawn := tokensDrawn }).core :=
        HubCore.lasts_of_sessions rfl
      have forgets : announced.core.Lasts dropped.core := by
        rw [drops]
        exact HubCore.lasts_of_sessions (announced.dropIfEmpty_sessions roomName)
      exact (changed.trans (told answers)).trans forgets
  | restate => exact before.lasts_persistRoom _ _
  | retire empty => exact HubCore.lasts_of_sessions rfl
  | drain =>
      refine HubCore.lasts_of_sessions ?_
      rw [HubTurn.drainRemovals, HubTurn.pushAll_core]
      rfl
  | lesserWrite lesser => exact HubCore.lasts_of_sessions rfl

/-! ## What a link says -/

/-- The send goes to a link and says something. -/
def Sent.Speaks (sent : Sent) : Prop :=
  ∃ target envelope, sent.send = .envelope target envelope

section Windows

variable [UnicodeTables] [HubCrypto]

omit [UnicodeTables] [HubCrypto] in
theorem lasts_moves {limits : Limits} (silent : ¬ limits.remembers)
    {before after : HubTurn} (moves : Moves limits before after) :
    before.core.Lasts after.core :=
  @Moves.induct limits (fun turn => before.core.Lasts turn.core)
    (fun _ _ move lasts => lasts.trans (move.lasts silent)) before after moves
    (.refl before.core)

/-- The id of an envelope that comes over the link, from a session that has
proved an identity and can pay. -/
def HubCore.arriving (core : HubCore) (link : LinkId) (input : HubInput) :
    Option MessageId :=
  match input.event with
  | .linkPacket source (some envelope) =>
      if source = link then
        ((core.sessions.lookup link).filter fun session =>
          session.identity.isSome &&
            (session.rate.allow input.ambient.instant core.config.rateMessagesPerMinute).2).map
          fun _ => envelope.messageId
      else none
  | _ => none

/-- How the session that a link has after an event came about. -/
inductive HubCore.SessionStep (core : HubCore) (input : HubInput)
    (link : LinkId) (later : HubSession) : Prop where
  | opened (absent : core.sessions.lookup link = none)
      (noIds : later.seenIds = []) (strange : later.welcomed = false)
  | kept {earlier : HubSession}
      (live : core.sessions.lookup link = some earlier)
      (welcomed : earlier.welcomed = true → later.welcomed = true)
      (sameIds : later.seenIds = earlier.seenIds)
      (untaken : ∀ id, core.arriving link input = some id → id ∈ earlier.seenIds)
  | took {earlier : HubSession} {id : MessageId}
      (live : core.sessions.lookup link = some earlier)
      (welcomed : earlier.welcomed = true → later.welcomed = true)
      (arrives : core.arriving link input = some id)
      (fresh : ¬ id ∈ earlier.seenIds)
      (ids : later.seenIds = (earlier.remember id).seenIds)

namespace HubCore

omit [UnicodeTables] [HubCrypto] in
theorem sessionStep_of_lasts {core after : HubCore} {input : HubInput}
    {link : LinkId} {later : HubSession} (lasts : core.Lasts after)
    (live : after.sessions.lookup link = some later)
    (untaken : ∀ id earlier, core.arriving link input = some id →
      core.sessions.lookup link = some earlier → id ∈ earlier.seenIds) :
    core.SessionStep input link later := by
  obtain ⟨earlier, earlierLive, same⟩ := lasts link later live
  exact .kept earlierLive same.welcomed same.seenIds
    fun id arrives => untaken id earlier arrives earlierLive

omit [UnicodeTables] [HubCrypto] in
theorem lasts_notePacket (turn : HubTurn) (linkId : LinkId) :
    turn.core.Lasts (turn.notePacket linkId).1.core := by
  unfold HubTurn.notePacket
  split
  · exact .refl _
  · split
    · exact .refl _
    · exact turn.lasts_modifySession linkId fun _ => ⟨rfl, rfl, id⟩

/-- What a packet does to the sessions. -/
theorem sessionStep_packet {core : HubCore} {input : HubInput}
    {source : LinkId} {decoded : Option Envelope}
    (event : input.event = .linkPacket source decoded) {link : LinkId}
    {later : HubSession} (live : ((core.turn input.ambient).onPacket source
      decoded).core.sessions.lookup link = some later) :
    core.SessionStep input link later := by
  rcases HubTurn.onPacket_cases event False with
    ⟨envelope, isEnvelope, ⟨session, held, identified, fresh, allowed⟩,
      moves⟩ | ⟨moves, untaken⟩
  · obtain ⟨noted, notedLive, same⟩ := lasts_moves id moves link later live
    rw [HubTurn.received, HubTurn.modifySession, HubTurn.mapCore_core,
      FiniteMap.lookup_adjust] at notedLive
    split at notedLive
    · rename_i isSource
      subst isSource
      obtain ⟨paid, paidLive, rfl⟩ := Option.map_eq_some_iff.mp notedLive
      obtain ⟨earlier, earlierLive, lasts⟩ :=
        lasts_notePacket (core.turn input.ambient) link link paid paidLive
      have isHeld : earlier = session :=
        Option.some.inj (earlierLive.symm.trans held)
      subst isHeld
      have arrives : core.arriving link input = some envelope.messageId := by
        rw [arriving, event, isEnvelope]
        simp [held, identified, allowed, Option.filter]
      refine .took held (fun welcomed => same.welcomed
        (lasts.welcomed welcomed)) arrives fresh ?_
      rw [same.seenIds, HubSession.remember, HubSession.remember, lasts.seenIds]
    · rename_i other
      obtain ⟨earlier, earlierLive, lasts⟩ :=
        lasts_notePacket (core.turn input.ambient) source link noted notedLive
      refine .kept earlierLive
        (fun welcomed => same.welcomed (lasts.welcomed welcomed))
        (same.seenIds.trans lasts.seenIds) fun id arrives => ?_
      rw [arriving, event, isEnvelope] at arrives
      simp [Ne.symm other] at arrives
  · refine sessionStep_of_lasts (lasts_moves id moves) live
      fun id earlier arrives held => ?_
    rw [arriving, event] at arrives
    split at arrives
    · rename_i found envelope isPacket
      cases isPacket
      split at arrives
      · rename_i isLink
        subst isLink
        obtain ⟨other, kept, rfl⟩ := Option.map_eq_some_iff.mp arrives
        obtain ⟨isOther, passes⟩ := Option.filter_eq_some_iff.mp kept
        simp only [Bool.and_eq_true] at passes
        rw [held] at isOther
        cases isOther
        exact untaken envelope earlier rfl held passes.1 passes.2
      · cases arrives
    · cases arrives

omit [UnicodeTables] [HubCrypto] in
/-- A link that is there has the session it had, or a new one. -/
theorem openSession_cases (turn : HubTurn) (source : LinkId) {link : LinkId}
    {later : HubSession} (live : (turn.openSession source).core.sessions.lookup link =
      some later) :
    turn.core.sessions.lookup link = some later ∨
      turn.core.sessions.lookup link = none ∧ later.seenIds = [] ∧
        later.welcomed = false := by
  unfold HubTurn.openSession at live
  split at live
  · exact Or.inl live
  · rename_i absent
    rw [HubTurn.mapCore_core, FiniteMap.lookup_insert_ite] at live
    split at live
    · rename_i isSource
      cases live
      exact Or.inr ⟨isSource ▸ absent, rfl, rfl⟩
    · exact Or.inl live

omit [UnicodeTables] [HubCrypto] in
/-- A link that proves an identity has the session it had, or a new one. -/
theorem sessionStep_identified (turn : HubTurn) (source : LinkId)
    (identity : IdentityHash) {link : LinkId} {later : HubSession}
    (live : (turn.onLinkIdentified source identity).core.sessions.lookup link = some later) :
    (∃ earlier, turn.core.sessions.lookup link = some earlier ∧
      later.seenIds = earlier.seenIds ∧ later.welcomed = earlier.welcomed) ∨
      turn.core.sessions.lookup link = none ∧ later.seenIds = [] ∧
        later.welcomed = false := by
  unfold HubTurn.onLinkIdentified at live
  split at live
  · simp only [HubTurn.refuseLink, HubTurn.mapCore_core,
      FiniteMap.lookup_erase_ite] at live
    split at live
    · cases live
    · exact Or.inl ⟨later, live, rfl, rfl⟩
  · have bound : ∃ opened,
        (turn.openSession source).core.sessions.lookup link = some opened ∧
          later.seenIds = opened.seenIds ∧
            later.welcomed = opened.welcomed := by
      simp only [HubTurn.bindIdentity, HubTurn.modifySession,
        HubTurn.mapCore_core, FiniteMap.lookup_adjust] at live
      split at live
      · rename_i isSource
        obtain ⟨opened, held, rfl⟩ := Option.map_eq_some_iff.mp live
        exact ⟨opened, isSource ▸ held, rfl, rfl⟩
      · exact ⟨later, live, rfl, rfl⟩
    obtain ⟨opened, held, sameIds, sameWelcome⟩ := bound
    rcases openSession_cases turn source held with known | ⟨absent, noIds, strange⟩
    · exact Or.inl ⟨opened, known, sameIds, sameWelcome⟩
    · exact Or.inr ⟨absent, sameIds.trans noIds, sameWelcome.trans strange⟩

/-- A session after an event is a new one, or the one that was there. -/
theorem sessionStep (core : HubCore) (input : HubInput) {link : LinkId}
    {later : HubSession} (live : (core.step input).sessions.lookup link = some later) :
    core.SessionStep input link later := by
  by_cases packet : ∃ source decoded, input.event = .linkPacket source decoded
  · obtain ⟨source, decoded, event⟩ := packet
    rw [HubCore.step, HubCore.handle, event] at live
    exact sessionStep_packet event live
  have nothing : core.arriving link input = none := by
    rw [arriving]
    split
    · rename_i source envelope event
      exact absurd ⟨source, _, event⟩ packet
    · rfl
  have untaken {earlier : HubSession} (id : MessageId)
      (arrives : core.arriving link input = some id) :
      id ∈ earlier.seenIds := by
    rw [nothing] at arrives
    cases arrives
  rw [HubCore.step] at live
  rcases links_or_moves core input with ⟨source, opens⟩ | ⟨source, identity, binds⟩ | moves
  · rw [opens] at live
    rcases openSession_cases _ source live with known | ⟨absent, noIds, strange⟩
    · exact .kept known id rfl untaken
    · exact .opened absent noIds strange
  · rw [binds] at live
    rcases sessionStep_identified _ source identity live with
      ⟨earlier, known, sameIds, sameWelcome⟩ | ⟨absent, noIds, strange⟩
    · exact .kept known (fun welcomed => sameWelcome.trans welcomed) sameIds
        untaken
    · exact .opened absent noIds strange
  · have silent : ¬ (core.limitsOf input).remembers := by
      rintro ⟨source, envelope, event⟩
      exact packet ⟨source, some envelope, event⟩
    exact sessionStep_of_lasts (lasts_moves silent moves) live
      fun id _ arrives _ => untaken id arrives

omit [UnicodeTables] [HubCrypto] in
theorem sessions_notePersistFailed (core : HubCore) (op : HubRoomOp) :
    (core.notePersistFailed op).sessions = core.sessions := by
  cases op with
  | upsert row => rfl
  | touched roomName lastUsed => rfl
  | removed roomName => rfl
  | replaceKlines subjects => rfl
  | gcInvites before => rfl

theorem sessions_serve (core : HubCore) (input : ServiceInput) :
    (core.serve input).sessions = (core.step input.input).sessions := by
  unfold HubCore.serve
  generalize core.step input.input = after
  induction core.written input generalizing after with
  | nil => rfl
  | cons outcome rest ih =>
      rw [List.foldl_cons, ih]
      split
      · rfl
      · exact sessions_notePersistFailed after outcome.1

/-- An event that only says something writes nothing. -/
theorem serve_of_speaks {core : HubCore} {input : ServiceInput}
    (speaks : ∀ sent ∈ (core.handle input.input).out, sent.Speaks) :
    core.serve input = core.step input.input := by
  have unwritten : persistOps (core.handle input.input).out = [] := by
    rw [persistOps, List.filterMap_eq_nil_iff]
    intro sent among
    obtain ⟨target, envelope, send⟩ := speaks sent among
    rw [send]
  rw [serve, written, unwritten]
  rfl

/-- The hub with the ids that it took from a link since the link has a
session. -/
def hear (link : LinkId) (state : HubCore × List MessageId)
    (input : ServiceInput) : HubCore × List MessageId :=
  let after := state.1.serve input
  (after,
    if (after.sessions.lookup link).isNone then []
    else
      match state.1.arriving link input.input with
      | none => state.2
      | some id =>
          if id ∈ state.2.rtake seenIdLimit then state.2
          else state.2 ++ [id])

/-- The ids taken from the link in a run, since it has a session. -/
def heard (first : HubCore) (link : LinkId) (inputs : List ServiceInput) :
    List MessageId :=
  (runFrom (hear link) (first, []) inputs).2

theorem hear_run (link : LinkId) (state : HubCore × List MessageId)
    (inputs : List ServiceInput) :
    (runFrom (hear link) state inputs).1 = runFrom serve state.1 inputs := by
  induction inputs generalizing state with
  | nil => rfl
  | cons input rest ih => exact ih (hear link state input)

omit [UnicodeTables] [HubCrypto] in
/-- The last items of a list, and one more. -/
theorem rtake_window {α : Type} {size : Nat} (positive : 0 < size) (items : List α) (item : α) :
    (if size < (items.rtake size ++ [item]).length then
      (items.rtake size ++ [item]).tail
    else items.rtake size ++ [item]) = (items ++ [item]).rtake size := by
  obtain ⟨limit, rfl⟩ : ∃ limit, size = limit + 1 :=
    ⟨size - 1, by omega⟩
  have length : (items.rtake (limit + 1) ++ [item]).length =
      items.length - (items.length - (limit + 1)) + 1 := by
    simp [List.rtake]
  rw [length, List.rtake_concat_succ]
  split
  · rename_i full
    have some_left : items.rtake (limit + 1) ≠ [] := by
      intro empty
      have none := congrArg List.length empty
      simp only [List.rtake, List.length_drop, List.length_nil] at none
      omega
    rw [List.tail_append_of_ne_nil some_left, List.rtake, List.tail_drop, List.rtake]
    have same : items.length - (limit + 1) + 1 = items.length - limit := by
      omega
    rw [same]
  · rename_i fits
    have same : items.length - (limit + 1) = items.length - limit := by
      omega
    rw [List.rtake, same, List.rtake]

omit [UnicodeTables] [HubCrypto] in
/-- The window of a session holds the last ids. -/
theorem remember_rtake {session : HubSession} {ids : List MessageId}
    (window : session.seenIds = ids.rtake seenIdLimit) (id : MessageId) :
    (session.remember id).seenIds = (ids ++ [id]).rtake seenIdLimit := by
  have positive : 0 < seenIdLimit := Nat.zero_lt_succ 511
  have step := rtake_window positive ids id
  rw [← window] at step
  exact step

/-- The window of the session of a link holds the last ids taken from it. -/
structure Windowed (link : LinkId) (state : HubCore × List MessageId) :
    Prop where
  fresh : state.1.sessions.lookup link = none → state.2 = []
  window : ∀ session, state.1.sessions.lookup link = some session →
    session.seenIds = state.2.rtake seenIdLimit

theorem windowed_hear {link : LinkId} {state : HubCore × List MessageId}
    (windowed : Windowed link state) (input : ServiceInput) :
    Windowed link (hear link state input) := by
  constructor
  · intro gone
    rw [hear] at gone ⊢
    exact if_pos (by rw [gone]; rfl)
  · intro session live
    rw [hear] at live ⊢
    dsimp only at live ⊢
    rw [if_neg (by rw [live]; simp)]
    rw [sessions_serve] at live
    cases sessionStep state.1 input.input live with
    | opened absent noIds strange =>
        have nothing : state.1.arriving link input.input = none := by
          rw [arriving]
          split
          · split
            · rw [absent]
              rfl
            · rfl
          · rfl
        rw [nothing, noIds, windowed.fresh absent]
        rfl
    | kept held welcomed sameIds untaken =>
        have window := windowed.window _ held
        rw [sameIds, window]
        split
        · rfl
        · rename_i id arrives
          rw [if_pos (window ▸ untaken id arrives)]
    | took held welcomed arrives fresh ids =>
        have window := windowed.window _ held
        rw [window] at fresh
        rw [arrives]
        dsimp only
        rw [if_neg fresh, ids, remember_rtake window]

/-- The ids that a session still knows are the last ones taken from the link
since it has a session. -/
theorem seenIds_run {first : HubCore} (noSession : ∀ link,
      first.sessions.lookup link = none) (link : LinkId)
    (inputs : List ServiceInput) {session : HubSession}
    (live : (runFrom serve first inputs).sessions.lookup link = some session) :
    session.seenIds = (first.heard link inputs).rtake seenIdLimit := by
  have start : Windowed link (first, []) :=
    ⟨fun _ => rfl, fun session live => by
      rw [noSession link] at live
      cases live⟩
  have windowed := @invariant_of_forall_step _ _ (hear link) (Windowed link)
    (fun _ input windowed => windowed_hear windowed input) _ inputs start
  refine windowed.window session ?_
  rw [hear_run]
  exact live

end HubCore

/-! ## What a payload does -/

/-- Who may do what, and who is where, is as it was. -/
structure HubCore.SameStanding (before after : HubCore) : Prop where
  rooms : after.rooms = before.rooms
  klines : after.klines = before.klines
  serverOps : after.serverOps = before.serverOps
  byIdentity : after.byIdentity = before.byIdentity
  pendingRemovals : after.pendingRemovals = before.pendingRemovals
  klinesDirty : after.klinesDirty = before.klinesDirty
  config : after.config = before.config
  sessions : ∀ link, Option.Rel
    (fun earlier later => SameSeat earlier later ∧
      later.nickname = earlier.nickname)
    (before.sessions.lookup link) (after.sessions.lookup link)

namespace HubTurn

omit [UnicodeTables] [HubCrypto] in
theorem standing_of_accounted {before after : HubCore}
    (accounted : HubCore.Accounted before after) :
    before.SameStanding after := by
  obtain ⟨change, stats, same, rfl⟩ := accounted
  refine ⟨rfl, rfl, rfl, rfl, rfl, rfl, rfl, fun link => ?_⟩
  dsimp only
  rw [FiniteMap.lookup_mapValues]
  cases before.sessions.lookup link with
  | none => exact .none
  | some session => exact .some (same link session)

omit [UnicodeTables] [HubCrypto] in
theorem accounted_notePackets (turn : HubTurn) (linkId : LinkId) (count : Nat) :
    HubCore.Accounted turn.core (turn.notePackets linkId count).1.core := by
  induction count generalizing turn with
  | zero => exact .refl turn.core
  | succ count ih => exact (turn.accounted_notePacket linkId).trans (ih _)

omit [UnicodeTables] [HubCrypto] in
theorem fanOutPieces_core (room : HubRoom) (identity : IdentityHash)
    (roomName : String) (nickname : Option String) (turn : HubTurn) (chunks : List String) :
    (turn.fanOutPieces room identity roomName nickname chunks).core =
      turn.core := by
  unfold fanOutPieces
  induction chunks generalizing turn with
  | nil => rfl
  | cons chunk rest ih => rw [List.foldl_cons, ih, reseats_fanOut_core]

omit [UnicodeTables] [HubCrypto] in
theorem speaks_fanOutPieces (room : HubRoom) (identity : IdentityHash)
    (roomName : String) (nickname : Option String) (turn : HubTurn) (chunks : List String) :
    Sends Sent.Speaks turn
      (turn.fanOutPieces room identity roomName nickname chunks) := by
  unfold fanOutPieces
  induction chunks generalizing turn with
  | nil => exact sends_of_eq rfl
  | cons chunk rest ih =>
      refine Sends.trans (sends_pushAll turn fun send among => ?_)
        (ih _)
      obtain ⟨member, -, rfl⟩ := List.mem_map.mp among
      exact ⟨member, _, rfl⟩

omit [UnicodeTables] [HubCrypto] in
theorem speaks_hubErrorEcho (turn : HubTurn) (linkId : LinkId)
    (text : String) (room : Option String) :
    Sends Sent.Speaks turn
      (turn.push (turn.hubErrorEcho linkId text room)) := by
  apply sends_push
  rw [hubErrorEcho]
  split
  · exact ⟨linkId, _, rfl⟩
  · exact ⟨linkId, _, rfl⟩

omit [UnicodeTables] [HubCrypto] in
/-- A notice that came as a resource costs packets and is said, no more. -/
theorem standing_fanOutResourceNotice (turn : HubTurn) (linkId : LinkId)
    (identity : IdentityHash) (roomName text : String) :
    turn.core.SameStanding
        (turn.fanOutResourceNotice linkId identity roomName text).core ∧
      Sends Sent.Speaks turn
        (turn.fanOutResourceNotice linkId identity roomName text) := by
  obtain ⟨nickname, bytes, cases⟩ :=
    turn.fanOutResourceNotice_cases linkId identity roomName text
  extract_lets chunks paid after at cases
  have pays : HubCore.Accounted turn.core paid.core :=
    turn.accounted_notePackets linkId chunks.length
  have silent : Sends Sent.Speaks turn paid :=
    sends_of_eq (turn.notePackets_out linkId chunks.length)
  clear_value paid
  have counts (change : HubStats → HubStats) : Sends Sent.Speaks turn
      (paid.modifyStats change) :=
    silent.trans (sends_of_eq rfl)
  have counted (change : HubStats → HubStats) :=
    pays.trans (HubCore.accounted_modifyStats paid change)
  change turn.core.SameStanding after.core ∧ Sends Sent.Speaks turn after
  rcases cases with unknown | ⟨change, poor⟩ | ⟨room, change, -, relayed⟩
  · rw [unknown]
    exact ⟨standing_of_accounted pays, silent⟩
  · rw [poor]
    exact ⟨standing_of_accounted (counted change),
      (counts change).trans (speaks_hubErrorEcho _ _ _ _)⟩
  · have pieces := speaks_fanOutPieces room identity roomName nickname
      (paid.modifyStats change) chunks
    have same := standing_of_accounted (counted change)
    obtain ⟨roomTokens, tokensDrawn, minted⟩ := mintRoomToken_eq
      ((paid.modifyStats change).fanOutPieces room identity roomName nickname chunks) roomName
    rw [relayed, noteRelayed]
    refine ⟨?_, ((counts change).trans pieces).trans
      (sends_of_eq (mintRoomToken_out _ roomName))⟩
    rw [minted, mapCore_core, fanOutPieces_core]
    exact ⟨same.rooms, same.klines, same.serverOps, same.byIdentity,
      same.pendingRemovals, same.klinesDirty, same.config, same.sessions⟩

omit [UnicodeTables] in
/-- A delivered payload changes nobody's standing, whatever it says. -/
theorem standing_onResourceCompleted (turn : HubTurn) (linkId : LinkId)
    (resourceHash : Bytes 32) (data : List UInt8) (hasMetadata : Bool) :
    turn.core.SameStanding
        (turn.onResourceCompleted linkId resourceHash data hasMetadata).core ∧
      Sends Sent.Speaks turn
        (turn.onResourceCompleted linkId resourceHash data hasMetadata) := by
  have steady {first second : HubTurn}
      (core : ∃ admission, second.core = { first.core with admission := admission }) :
      first.core.SameStanding second.core := by
    obtain ⟨admission, same⟩ := core
    rw [same]
    refine ⟨rfl, rfl, rfl, rfl, rfl, rfl, rfl, fun link => ?_⟩
    cases first.core.sessions.lookup link with
    | none => exact .none
    | some session => exact .some ⟨⟨rfl, rfl, rfl⟩, rfl⟩
  have cases := turn.onResourceCompleted_cases linkId resourceHash data hasMetadata
  extract_lets after retired taken claimed at cases
  change turn.core.SameStanding after.core ∧ Sends Sent.Speaks turn after
  rcases cases with ⟨-, ended | rejected⟩ |
    ⟨-, unmatched | ⟨text, room, rejected⟩ | ⟨text, room, refused⟩ |
      ⟨identity, expectation, text, -, -, -, -, -, relayed⟩⟩
  · rw [ended]
    exact ⟨steady ⟨_, rfl⟩, sends_of_eq rfl⟩
  · rw [rejected]
    exact ⟨steady ⟨_, rfl⟩, sends_of_eq rfl⟩
  · rw [unmatched]
    exact ⟨steady ⟨_, rfl⟩, sends_of_eq rfl⟩
  · rw [rejected]
    exact ⟨steady ⟨_, rfl⟩, (sends_of_eq rfl).trans (speaks_hubErrorEcho _ linkId text room)⟩
  · rw [refused]
    have tells : Sends Sent.Speaks claimed
        (claimed.pushError linkId text room) :=
      sends_push ⟨linkId, _, rfl⟩
    exact ⟨steady ⟨_, rfl⟩, ((sends_of_eq rfl).trans tells).trans (sends_of_eq rfl)⟩
  · rw [relayed]
    have fans := claimed.standing_fanOutResourceNotice linkId identity expectation.room text
    obtain ⟨same, silent⟩ := fans
    exact ⟨⟨same.rooms, same.klines, same.serverOps, same.byIdentity,
        same.pendingRemovals, same.klinesDirty, same.config, same.sessions⟩,
      (sends_of_eq rfl).trans silent⟩

end HubTurn

/-! ## Who may speak -/

/-- The link belongs to an identity that was welcomed and that the room lets
speak: a member, or somebody outside of a room that he can see and that takes
messages from outside; who is not banned; and who has a voice if the room is
moderated. -/
structure HubCore.MaySpeak (core : HubCore) (linkId : LinkId)
    (identity : IdentityHash) (roomName : String) : Prop where
  session : ∃ session, core.sessions.lookup linkId = some session ∧
    session.identity = some identity ∧ session.welcomed = true
  room : ∃ room, core.rooms.lookup roomName = some room ∧
    ¬ identity ∈ room.bans ∧
    (core.roll.joined linkId roomName ∨
      room.noOutsideMsgs = false ∧
        (room.isPrivate = false ∨ identity ∈ core.serverOps ∨
          identity ∈ room.ops ∨ ∃ member ∈ room.members,
            core.sessionIdentity member = some identity)) ∧
    (room.moderated = true → identity ∈ core.serverOps ∨
      identity ∈ room.ops ∨ identity ∈ room.voiced)

namespace HubCore

omit [UnicodeTables] [HubCrypto] in
theorem maySpeak_of_passes {core : HubCore} {linkId : LinkId}
    {identity : IdentityHash} {roomName : String} {session : HubSession}
    {room : HubRoom} (live : core.sessions.lookup linkId = some session)
    (identified : session.identity = some identity) (welcomed : session.welcomed = true)
    (held : core.rooms.lookup roomName = some room)
    (passes : core.relayRefusal linkId identity roomName = none) :
    core.MaySpeak linkId identity roomName := by
  have clear := HubTurn.not_banned_of_relayRefusal held passes
  refine ⟨⟨session, live, identified, welcomed⟩, room, held, clear, ?_, ?_⟩
  · by_cases joined : roomName ∈ session.rooms
    · exact Or.inl ⟨session, live, joined⟩
    · right
      have outside : core.sessionInRoom linkId roomName = false := by
        simp [sessionInRoom, live, joined]
      simp only [relayRefusal, held, outside] at passes
      by_cases visible : core.canViewRoom room identity = true
      · by_cases shut : room.noOutsideMsgs = true
        · simp [visible, shut] at passes
        · refine ⟨Bool.eq_false_iff.mpr shut, ?_⟩
          simp only [canViewRoom, isRoomOp, identityInRoom, Bool.or_eq_true,
            Bool.not_eq_true', decide_eq_true_eq, List.any_eq_true,
            beq_iff_eq, FiniteSet.mem_toList] at visible
          rcases visible with (open_room | operator | owner) | present
          · exact Or.inl open_room
          · exact Or.inr (Or.inl operator)
          · exact Or.inr (Or.inr (Or.inl owner))
          · exact Or.inr (Or.inr (Or.inr present))
      · simp [visible] at passes
  · intro moderated
    by_cases voiced : core.isVoiced room identity = true
    · simpa [isVoiced, isRoomOp, or_assoc] using voiced
    · simp only [relayRefusal, held] at passes
      split at passes
      · cases passes
      · rename_i equal
        cases equal
      · rename_i found equal
        cases equal
        simp [clear, moderated, voiced] at passes

end HubCore

/-! ## What is relayed -/

/-- What is said in a room is said there by somebody else than the hub, or is
no error that comes while a payload is delivered. -/
def Sent.FansOut (sent : Sent) (event : HubEvent) (target : LinkId)
    (envelope : Envelope) (roomName : String) : Prop :=
  sent.send = .envelope target envelope ∧
    (envelope.isRoomMessage sent.core.hubHash roomName ∨
      envelope.room = some roomName ∧ envelope.messageType ≠ .error ∧
        ∃ linkId resourceHash data hasMetadata, event =
          .resourceCompleted linkId resourceHash data hasMetadata)

/-- A message into a room is one that may be relayed there, and goes to a
member. -/
def Sent.Relayed (relays : String → Envelope → Prop) (sent : Sent) : Prop :=
  match sent.send with
  | .envelope target content =>
      ∀ roomName, content.isRoomMessage sent.core.hubHash roomName →
        relays roomName content ∧
          ∃ room, sent.core.rooms.lookup roomName = some room ∧ target ∈ room.members
  | _ => True

omit [UnicodeTables] [HubCrypto] in
theorem Sent.Administrative.relayed {relays : String → Envelope → Prop}
    {sent : Sent} (administrative : sent.Administrative) :
    sent.Relayed relays := by
  obtain ⟨send, core⟩ := sent
  cases send with
  | envelope target content =>
      intro roomName message
      exact absurd message (administrative roomName)
  | resource target content payload => trivial
  | close target => trivial
  | persist persist => trivial

/-- All that an event sends into a room it may relay. -/
theorem relayed_step (core : HubCore) (input : HubInput) :
    ∀ sent ∈ (core.handle input).out,
      sent.Relayed (core.MayRelay input) := by
  have silent : ∀ sent ∈ (core.turn input.ambient).out,
      sent.Relayed (core.MayRelay input) :=
    fun sent member => absurd member List.not_mem_nil
  rcases reseats_or_moves core input with reseats | moves
  · exact (reseats.sends.mono fun _ administrative =>
      administrative.relayed).all silent
  · refine @Moves.induct _ (fun turn => ∀ sent ∈ turn.out,
      sent.Relayed (core.MayRelay input)) (fun before after move earlier =>
        (move.sends (fun _ administrative => administrative.relayed)
          fun roomName room envelope found scope _ allowed => ?_).all
          earlier) _ _ moves silent
    refine HubTurn.sends_pushAll before fun send among => ?_
    obtain ⟨member, inside, rfl⟩ := List.mem_map.mp among
    rintro name ⟨named, -⟩
    have same : name = roomName :=
      Option.some.inj (named.symm.trans scope)
    rw [same]
    exact ⟨allowed, room, found, inside⟩

/-- The link announced the payload earlier in the run, in a new envelope, as
a welcomed link and for a room that let it speak then. -/
def HubCore.Announced (first : HubCore) (inputs : List ServiceInput)
    (linkId : LinkId) (expectation : InboundExpectation) : Prop :=
  ∃ before announcing rest announcer announcement,
    inputs = before ++ announcing :: rest ∧
    (runFrom HubCore.serve first before).Promises announcing.input linkId
      announcer announcement expectation ∧
    ¬ announcement.messageId ∈ (first.heard linkId before).rtake seenIdLimit

/-- What the gate expects of a link, a welcomed link announced. -/
def HubCore.Awaited (first : HubCore) (inputs : List ServiceInput) : Prop :=
  ∀ linkId expectation,
    expectation ∈ (runFrom HubCore.serve first inputs).admission.pending linkId →
    first.Announced inputs linkId expectation ∧
      ∃ session, (runFrom HubCore.serve first inputs).sessions.lookup
        linkId = some session ∧ session.welcomed = true

namespace HubCore

theorem Announced.append {first : HubCore} {inputs : List ServiceInput}
    {linkId : LinkId} {expectation : InboundExpectation}
    (announced : first.Announced inputs linkId expectation) (input : ServiceInput) :
    first.Announced (inputs ++ [input]) linkId expectation := by
  obtain ⟨before, announcing, rest, announcer, announcement, split, promises,
    fresh⟩ := announced
  refine ⟨before, announcing, rest ++ [input], announcer, announcement, ?_, promises, fresh⟩
  rw [split, List.append_assoc, List.cons_append]

/-- A delivered envelope is new among the last ids of its link. -/
theorem fresh_of_delivered {first : HubCore}
    (noSession : ∀ link, first.sessions.lookup link = none)
    {inputs : List ServiceInput} {input : HubInput} {linkId : LinkId}
    {identity : IdentityHash} {envelope : Envelope}
    (delivered : (runFrom serve first inputs).delivered input =
      some (linkId, identity, envelope)) :
    ¬ envelope.messageId ∈ (first.heard linkId inputs).rtake seenIdLimit := by
  obtain ⟨-, session, live, -, -, fresh, -⟩ :=
    (delivered_eq_some_iff _ input linkId identity envelope).mp delivered
  rw [← seenIds_run noSession linkId inputs live]
  exact fresh

/-- One event more. -/
theorem awaited_append {first : HubCore}
    (noSession : ∀ link, first.sessions.lookup link = none) {inputs : List ServiceInput}
    (attended : ∀ inputs, (runFrom serve first inputs).Attended)
    (awaited : first.Awaited inputs) (input : ServiceInput) :
    first.Awaited (inputs ++ [input]) := by
  intro linkId expectation expected
  have identified : ∃ identity, (runFrom serve first
      (inputs ++ [input])).sessionIdentity linkId = some identity := by
    rw [← Option.ne_none_iff_exists']
    intro lost
    have vacant := (attended (inputs ++ [input])).unproved linkId lost
    rw [vacant.1] at expected
    cases expected
  rw [runFrom_append] at expected identified ⊢
  obtain ⟨ops, serves⟩ := (runFrom serve first inputs).serves_serve input
  have known : first.Announced (inputs ++ [input]) linkId expectation ∧
      ∃ session, (runFrom serve first inputs).sessions.lookup linkId =
        some session ∧ session.welcomed = true := by
    have among := expected
    rw [show (runFrom serve (runFrom serve first inputs) [input]).admission =
      runFrom AdmissionState.perform
        (runFrom serve first inputs).admission ops from serves.admission]
      at among
    rcases AdmissionState.mem_pending_run among with earlier | asked
    · obtain ⟨announced, session⟩ := awaited linkId expectation earlier
      exact ⟨announced.append input, session⟩
    · obtain ⟨announcer, announcement, promises⟩ :=
        serves.promised linkId expectation asked
      obtain ⟨-, session, live, -, welcomed, -⟩ :=
        (delivered_eq_some_iff _ input.input linkId announcer
          announcement).mp promises.delivered
      exact ⟨⟨inputs, input, [], announcer, announcement, rfl, promises,
        fresh_of_delivered noSession promises.delivered⟩, session, live,
        welcomed⟩
  obtain ⟨announced, session, live, welcomed⟩ := known
  refine ⟨announced, ?_⟩
  obtain ⟨identity, proved⟩ := identified
  obtain ⟨later, laterLive, -⟩ := Option.bind_eq_some_iff.mp proved
  refine ⟨later, laterLive, ?_⟩
  have stepLive : ((runFrom serve first inputs).step
      input.input).sessions.lookup linkId = some later := by
    rw [← sessions_serve]
    exact laterLive
  cases sessionStep _ input.input stepLive with
  | opened absent noIds strange =>
      rw [live] at absent
      cases absent
  | kept held keeps sameIds untaken =>
      rw [live] at held
      cases held
      exact keeps welcomed
  | took held keeps arrives fresh ids =>
      rw [live] at held
      cases held
      exact keeps welcomed

theorem awaited_run {first : HubCore} (noSession : ∀ link, first.sessions.lookup link = none)
    (attended : ∀ inputs, (runFrom serve first inputs).Attended)
    (empty : ∀ linkId, first.admission.pending linkId = [])
    (inputs : List ServiceInput) : first.Awaited inputs := by
  induction inputs using List.reverseRecOn with
  | nil =>
      intro linkId expectation expected
      rw [show (runFrom serve first []).admission.pending linkId = [] from
        empty linkId] at expected
      cases expected
  | append_singleton inputs input ih => exact awaited_append noSession attended ih input

end HubCore

/-! ## Integrity -/

/-- The envelope is what the link sent in a packet: a message and no command,
under an id that is new among the last ones of the link. -/
structure HubCore.Repeats (first : HubCore) (inputs : List ServiceInput)
    (input : HubInput) (linkId : LinkId) (roomName : String)
    (envelope said : Envelope) : Prop where
  event : input.event = .linkPacket linkId (some said)
  kind : said.messageType ∈ [MessageType.message, MessageType.notice, MessageType.action]
  plain : HubTurn.isSlashText said = false
  named : (runFrom HubCore.serve first inputs).normRoom (said.room.getD "") = .ok roomName
  fresh : ¬ said.messageId ∈ (first.heard linkId inputs).rtake seenIdLimit
  messageId : envelope.messageId = said.messageId
  messageType : envelope.messageType = said.messageType
  body : envelope.body = said.body

/-- The envelope is a piece of the text of a payload, which is no command and
which the link announced for the room. -/
structure HubCore.Conveys (first : HubCore) (inputs : List ServiceInput)
    (input : HubInput) (linkId : LinkId) (roomName : String)
    (envelope : Envelope) (text : String) (expectation : InboundExpectation) : Prop where
  event : ∃ resourceHash data hasMetadata, input.event =
      .resourceCompleted linkId resourceHash data hasMetadata ∧
    String.fromUTF8? ⟨data.toArray⟩ = some text
  plain : startsWithChar '/' (trimStart text) = false
  named : expectation.room = roomName
  announced : first.Announced inputs linkId expectation
  messageType : envelope.messageType = .notice
  body : ∃ bytes, ∃ chunk ∈ chunkText text bytes, envelope.body = some (.text chunk)

/-- What the hub does about rooms with the next input of a run. -/
structure HubCore.RelaysFaithfully (first : HubCore)
    (inputs : List ServiceInput) (input : ServiceInput) : Prop where
  /-- What goes into a room comes from a link that may speak there. -/
  said : ∀ sent ∈
      ((runFrom HubCore.serve first inputs).handle input.input).out,
    ∀ target envelope roomName,
      sent.FansOut input.input.event target envelope roomName →
      ∃ linkId identity,
        (runFrom HubCore.serve first inputs).MaySpeak linkId identity roomName ∧
        envelope.source = identity ∧ envelope.room = some roomName ∧
        (∃ room, sent.core.rooms.lookup roomName = some room ∧ target ∈ room.members) ∧
        ((∃ received, first.Repeats inputs input.input linkId roomName
            envelope received) ∨
          ∃ text expectation, first.Conveys inputs input.input linkId
            roomName envelope text expectation)
  /-- A payload is no command: it changes nobody's standing, stores nothing
  and closes nothing. -/
  commandless : ∀ linkId resourceHash data hasMetadata,
    input.input.event =
        .resourceCompleted linkId resourceHash data hasMetadata →
      (runFrom HubCore.serve first inputs).SameStanding
          (runFrom HubCore.serve first (inputs ++ [input])) ∧
        ∀ sent ∈
          ((runFrom HubCore.serve first inputs).handle input.input).out,
          sent.Speaks

/-- Whatever the hub says in a room on behalf of a link, the link may say
there, and said it, once. -/
theorem relayIntegrity_run (config : ChannelHubConfig)
    (hubHash : IdentityHash) (klines : FiniteSet IdentityHash)
    (pepper : Bytes 32) (restored : List HubRoomRow) (start : Ambient)
    (inputs : List ServiceInput) (input : ServiceInput) :
    let admission := AdmissionState.new config.resourceAcceptEnabled
      (HubTurn.inboundResourceCap config)
    (HubCore.new config hubHash klines admission pepper restored
      start).RelaysFaithfully inputs input := by
  intro admission
  have unattended := unattended_new config hubHash klines admission pepper restored start
  have runs := attended_run config hubHash klines pepper restored start
  change ∀ inputs, (HubCore.new config hubHash klines admission pepper
    restored start).admission = admission ∧ _ at runs
  generalize HubCore.new config hubHash klines admission pepper restored start = first at *
  have noSession := unattended.no_session
  have awaited := HubCore.awaited_run noSession (fun inputs =>
    (runs inputs).2.2) (fun linkId => by rw [(runs inputs).1]; rfl) inputs
  constructor
  · intro sent among target envelope roomName fans
    by_cases payload : ∃ linkId resourceHash data hasMetadata,
        input.input.event = .resourceCompleted linkId resourceHash data hasMetadata
    · obtain ⟨linkId, resourceHash, data, hasMetadata, event⟩ := payload
      have kind : envelope.messageType ≠ .error := by
        rcases fans.2 with ⟨-, kind⟩ | ⟨-, kind, -⟩
        · intro isError
          simp [isError] at kind
        · exact kind
      have scope : envelope.room = some roomName := by
        rcases fans.2 with ⟨scope, -⟩ | ⟨scope, -⟩
        · exact scope
        · exact scope
      obtain ⟨identity, expectation, text, -, known, isTaken, readable, plain,
        passes, ⟨ms, nickname, bytes, chunk, piece, rfl⟩, sameRooms, room,
        held, inside⟩ := HubCore.piece_of_send event among fans.1 kind
      have named : expectation.room = roomName := Option.some.inj scope
      obtain ⟨announced, session, live, welcomed⟩ :=
        awaited linkId expectation (HubCore.pending_of_taken isTaken).1
      have identified : session.identity = some identity := by
        rw [HubCore.sessionIdentity, live] at known
        exact known
      rw [named] at held passes
      refine ⟨linkId, identity, HubCore.maySpeak_of_passes live identified
        welcomed held passes, rfl, scope, ⟨room, ?_, inside⟩, Or.inr
        ⟨text, expectation, ⟨resourceHash, data, hasMetadata, event,
          readable⟩, plain, named, announced, rfl, bytes, chunk, piece, rfl⟩⟩
      rw [sameRooms]
      exact held
    · have message : envelope.isRoomMessage sent.core.hubHash roomName := by
        rcases fans.2 with message | ⟨-, -, delivers⟩
        · exact message
        · exact absurd delivers payload
      have relayed := relayed_step _ input.input sent among
      rw [Sent.Relayed, fans.1] at relayed
      obtain ⟨said | delivers, member⟩ := relayed roomName message
      · obtain ⟨linkId, identity, received, said⟩ := said
        obtain ⟨event, session, live, identified, welcomed, -⟩ :=
          (HubCore.delivered_eq_some_iff _ input.input linkId identity
            received).mp said.delivered
        obtain ⟨room, held⟩ := Option.isSome_iff_exists.mp said.held
        exact ⟨linkId, identity, HubCore.maySpeak_of_passes live identified
          welcomed held said.gate, said.source, message.1, member, Or.inl
          ⟨received, event, said.kind, said.plain, said.named,
            HubCore.fresh_of_delivered noSession said.delivered,
            said.messageId, said.messageType, said.body⟩⟩
      · exact absurd delivers payload
  · intro linkId resourceHash data hasMetadata event
    have standing := ((runFrom HubCore.serve first inputs).turn
      input.input.ambient).standing_onResourceCompleted linkId resourceHash
      data hasMetadata
    have handled : (runFrom HubCore.serve first inputs).handle input.input =
        ((runFrom HubCore.serve first inputs).turn
          input.input.ambient).onResourceCompleted linkId resourceHash data
          hasMetadata := by
      rw [HubCore.handle, event]
      rfl
    rw [← handled] at standing
    have speaks : ∀ sent ∈
        ((runFrom HubCore.serve first inputs).handle input.input).out,
        sent.Speaks :=
      standing.2.all fun sent member => absurd member List.not_mem_nil
    refine ⟨?_, speaks⟩
    have unwritten := HubCore.serve_of_speaks speaks
    rw [runFrom_append]
    change (runFrom HubCore.serve first inputs).SameStanding
      ((runFrom HubCore.serve first inputs).serve input)
    rw [unwritten]
    exact standing.1

end Windows

/-! ## The limits of the guarantee -/

instance (hubHash : IdentityHash) (roomName : String) (envelope : Envelope) :
    Decidable (envelope.isRoomMessage hubHash roomName) := by
  unfold Envelope.isRoomMessage
  infer_instance

/-- Whether what the turn sends last is a message into the room that passes
the test. -/
def HubTurn.tellsRoom (turn : HubTurn) (roomName : String) (test : Envelope → Bool) : Bool :=
  turn.out.getLast?.any fun sent =>
    match sent.send with
    | .envelope _ envelope =>
        decide (envelope.isRoomMessage sent.core.hubHash roomName) && test envelope
    | _ => false

theorem HubTurn.fansOut_of_tellsRoom {turn : HubTurn} {roomName : String}
    {test : Envelope → Bool} (tells : turn.tellsRoom roomName test = true) (event : HubEvent) :
    ∃ sent ∈ turn.out, ∃ target envelope,
      sent.FansOut event target envelope roomName ∧ test envelope = true := by
  obtain ⟨sent, last, passes⟩ := (Option.any_eq_true _ _).mp tells
  split at passes
  · rename_i target envelope send
    simp only [Bool.and_eq_true, decide_eq_true_eq] at passes
    exact ⟨sent, List.mem_of_getLast? last, target, envelope, ⟨send, Or.inl passes.1⟩, passes.2⟩
  · cases passes

/-- A payload that passes every check is said in the room. -/
theorem HubTurn.onResourceCompleted_of_checks [HubCrypto] {turn : HubTurn}
    {linkId : LinkId} {resourceHash : Bytes 32} {data : List UInt8}
    {identity : IdentityHash} {expectation : InboundExpectation}
    {text : String} (receives : turn.core.Receives linkId data false)
    (known : turn.core.sessionIdentity linkId = some identity)
    (awaited : (turn.core.taken turn.ambient.instant linkId resourceHash
      data).2 = some expectation)
    (encoding : expectation.encoding = none)
    (reads : String.fromUTF8? ⟨data.toArray⟩ = some text)
    (plain : startsWithChar '/' (trimStart text) = false)
    (passes : turn.core.relayRefusal linkId identity expectation.room = none) :
    turn.onResourceCompleted linkId resourceHash data false =
      (turn.modifyAdmission fun _ =>
        (turn.core.taken turn.ambient.instant linkId resourceHash
          data).1).fanOutResourceNotice linkId identity expectation.room
        text := by
  unfold onResourceCompleted
  extract_lets retired rejected found claimed rejectedClaim
  have fits : ¬ (false = true ∨ data.isEmpty = true ∨
      inboundResourceCap retired.core.config < data.length) := by
    rintro (metadata | empty | large)
    · cases metadata
    · exact receives.nonempty (List.isEmpty_iff.mp empty)
    · exact absurd receives.fits (Nat.not_le.mpr large)
  have enabled : retired.core.config.resourceAcceptEnabled = true :=
    receives.enabled
  have proved : retired.core.sessionIdentity linkId = some identity := known
  have matched : found.2 = some expectation := awaited
  have gate : claimed.core.relayRefusal linkId identity expectation.room =
      none := passes
  rw [if_neg (by rw [enabled]; decide), proved]
  dsimp only
  rw [if_neg fits, matched]
  dsimp only
  simp only [encoding, Option.all_none, if_true, reads, plain,
    Bool.false_eq_true, if_false, withRelayGate, gate]
  rfl

/-- The counts after a notice of some bytes that came as a resource. -/
def HubStats.countNotice (bytes : Nat) (stats : HubStats) : HubStats :=
  { stats with
    noticesForwarded := stats.noticesForwarded + 1
    resourcesReceived := stats.resourcesReceived + 1
    resourceBytesReceived := stats.resourceBytesReceived + bytes }

/-- A notice of a link without a nickname that is paid for goes out in
pieces. -/
theorem HubTurn.fanOutResourceNotice_of_paid {turn : HubTurn}
    {linkId : LinkId} {identity : IdentityHash} {roomName text : String}
    {bytes : Nat} {chunks : List String} {room : HubRoom}
    (unnamed : turn.core.sessionNickname linkId = none)
    (budget : turn.relayedNoticeBudget identity roomName none = bytes)
    (pieces : chunkText text (max bytes minNoticeBodyBytes) = chunks)
    (paid : (turn.notePackets linkId chunks.length).2 = true)
    (held : turn.core.rooms.lookup roomName = some room) :
    turn.fanOutResourceNotice linkId identity roomName text =
      (((turn.notePackets linkId chunks.length).1.modifyStats
        (HubStats.countNotice text.utf8ByteSize)).fanOutPieces room identity
        roomName none chunks).noteRelayed roomName := by
  have same : (turn.notePackets linkId chunks.length).1.core.rooms.lookup
      roomName = some room := by
    rw [notePackets_rooms]
    exact held
  simp only [fanOutResourceNotice, unnamed, Option.bind_none,
    Option.isSome_none, Bool.and_false, Bool.false_eq_true, if_false, budget,
    pieces, paid, Bool.not_true, same]
  rfl

/-- The pieces of a text, counted as they grow. -/
def chunkChars (maxBytes : Nat) : Nat → List Char → List Char →
    List (List Char)
  | _, current, [] => if current.isEmpty then [] else [current.reverse]
  | bytes, current, char :: rest =>
      if maxBytes < bytes + char.utf8Size ∧ ¬ current.isEmpty then
        current.reverse :: chunkChars maxBytes char.utf8Size [char] rest
      else chunkChars maxBytes (bytes + char.utf8Size) (char :: current) rest

theorem chunkTextFrom_chars (maxBytes : Nat) (current rest : List Char) :
    chunkTextFrom maxBytes (String.ofList current.reverse) rest =
      (chunkChars maxBytes (String.ofList current.reverse).utf8ByteSize
        current rest).map String.ofList := by
  induction rest generalizing current with
  | nil =>
      unfold chunkTextFrom chunkChars
      cases current with
      | nil => rfl
      | cons char kept => simp
  | cons char rest ih =>
      have pushed : (String.ofList current.reverse).push char =
          String.ofList (char :: current).reverse := by
        simp
      have grown : (String.ofList (char :: current).reverse).utf8ByteSize =
          (String.ofList current.reverse).utf8ByteSize + char.utf8Size := by
        rw [← pushed, String.utf8ByteSize_push]
      have single : String.singleton char =
          String.ofList [char].reverse := by
        simp
      have size : (String.ofList [char].reverse).utf8ByteSize =
          char.utf8Size := by
        simp
      have started : (String.ofList current.reverse).isEmpty =
          current.isEmpty := by
        cases current with
        | nil => rfl
        | cons first kept => simp
      unfold chunkTextFrom chunkChars
      rw [started]
      split
      · rw [single, ih, size]
        rfl
      · rw [pushed, ih, grown]

theorem chunkText_ofList (text : List Char) (maxBytes : Nat) :
    chunkText (String.ofList text) maxBytes =
      (chunkChars maxBytes 0 [] text).map String.ofList := by
  rw [chunkText, String.toList_ofList]
  exact chunkTextFrom_chars maxBytes [] text

theorem fromUTF8?_encoded (text : List Char) :
    String.fromUTF8? ⟨(text.flatMap String.utf8EncodeChar).toArray⟩ =
      some (String.ofList text) := by
  have bytes : (⟨(text.flatMap String.utf8EncodeChar).toArray⟩ :
      ByteArray) = text.utf8Encode := by
    rw [List.utf8Encode]
    apply ByteArray.ext
    simp
  rw [bytes, String.fromUTF8?, dif_pos ByteArray.isValidUTF8_utf8Encode]
  rfl

section Samples

attribute [local instance] asciiTables sampleCrypto

/-- A hub that takes notices as resources. -/
def noticeHub : HubCore :=
  HubCore.new
    { serverOperators := [alice], resourceAcceptEnabled := true }
    (Bytes.replicate 16 9) (FiniteSet.ofList [])
    (AdmissionState.new true 4096) (Bytes.replicate 32 7) [] (ambientAt 0)

/-- Alice joins and announces a notice. -/
def noticeComing : List ServiceInput :=
  joining linkOne alice "r" ++
    [served (.linkPacket linkOne (some
      { wireEnvelope 3 .resourceEnvelope alice (some "r") with
        body := some (resourceEnvelopeBody (List.replicate 8 4)
          { id := .wire (Bytes.replicate 8 4)
            kind := "notice"
            size := 401
            sha256 := none
            encoding := none }) }))]

/-- A letter and many slashes. -/
def manySlashes : List Char :=
  'a' :: List.replicate 400 '/'

/-- The notice arrives. -/
def slashNotice : HubEvent :=
  .resourceCompleted linkOne (Bytes.replicate 32 0)
    (manySlashes.flatMap String.utf8EncodeChar) false

/-- A message that always has the same id. -/
def sameMessage : HubEvent :=
  .linkPacket linkOne (some
    { wireEnvelope 5 .message alice (some "r") with
      body := some (.text "hello") })

/-- The hub that has heard of the notice. -/
def expectantHub : HubCore :=
  runFrom HubCore.serve noticeHub noticeComing

/-- The hub that has taken the announcement for the notice. -/
def claimingHub : HubTurn :=
  (expectantHub.turn (ambientAt 1)).modifyAdmission fun _ =>
    (expectantHub.taken (ambientAt 1).instant linkOne (Bytes.replicate 32 0)
      (manySlashes.flatMap String.utf8EncodeChar)).1

private theorem slashPiece_fannedOut :
    (claimingHub.fanOutResourceNotice linkOne alice "r"
      (String.ofList manySlashes)).tellsRoom "r" HubTurn.isSlashText =
      true := by
  have unnamed : claimingHub.core.sessionNickname linkOne = none := by
    decide +kernel
  have budget : claimingHub.relayedNoticeBudget alice "r" none = 387 := by
    decide +kernel
  have cut : chunkChars 387 0 [] manySlashes =
      ['a' :: List.replicate 386 '/', List.replicate 14 '/'] := by
    decide +kernel
  have pieces : chunkText (String.ofList manySlashes)
      (max 387 minNoticeBodyBytes) =
        [String.ofList ('a' :: List.replicate 386 '/'),
          String.ofList (List.replicate 14 '/')] := by
    rw [show max 387 minNoticeBodyBytes = 387 from rfl, chunkText_ofList, cut]
    rfl
  have paid : (claimingHub.notePackets linkOne 2).2 = true := by
    decide +kernel
  have isHeld : (claimingHub.core.rooms.lookup "r").isSome = true := by
    decide +kernel
  have told : (claimingHub.core.rooms.lookup "r").all (fun room =>
      ((((claimingHub.notePackets linkOne 2).1.modifyStats
        (HubStats.countNotice (String.ofList manySlashes).utf8ByteSize)
        ).fanOutPieces room alice "r" none
          [String.ofList ('a' :: List.replicate 386 '/'),
            String.ofList (List.replicate 14 '/')]).noteRelayed
        "r").tellsRoom "r" HubTurn.isSlashText) = true := by
    decide +kernel
  obtain ⟨room, held⟩ := Option.isSome_iff_exists.mp isHeld
  rw [HubTurn.fanOutResourceNotice_of_paid unnamed budget pieces paid held]
  rw [held] at told
  exact told

/-- A later piece of a notice may read like a command. -/
private theorem slashPiece_told :
    (expectantHub.handle ⟨ambientAt 1, slashNotice⟩).tellsRoom "r"
      HubTurn.isSlashText = true := by
  have receives : expectantHub.Receives linkOne
      (manySlashes.flatMap String.utf8EncodeChar) false := by
    constructor <;> decide +kernel
  have known : expectantHub.sessionIdentity linkOne = some alice := by
    decide +kernel
  have awaited : (expectantHub.taken (ambientAt 1).instant linkOne
      (Bytes.replicate 32 0)
      (manySlashes.flatMap String.utf8EncodeChar)).2.any (fun expectation =>
        decide (expectation.encoding = none ∧ expectation.room = "r")) =
      true := by
    decide +kernel
  have plain : startsWithChar '/' (trimStart (String.ofList manySlashes)) =
      false := by
    rw [startsWithChar, trimStart, String.toList_ofList, String.toList_ofList]
    decide +kernel
  have passes : expectantHub.relayRefusal linkOne alice "r" = none := by
    decide +kernel
  obtain ⟨expectation, taken, isPlain⟩ := (Option.any_eq_true _ _).mp awaited
  obtain ⟨encoding, room⟩ := of_decide_eq_true isPlain
  have said : (expectantHub.turn (ambientAt 1)).onResourceCompleted linkOne
      (Bytes.replicate 32 0) (manySlashes.flatMap String.utf8EncodeChar)
      false = claimingHub.fanOutResourceNotice linkOne alice expectation.room
        (String.ofList manySlashes) :=
    HubTurn.onResourceCompleted_of_checks receives known taken encoding
      (fromUTF8?_encoded manySlashes) plain (room ▸ passes)
  rw [room] at said
  rw [HubCore.handle, slashNotice, HubTurn.handle, said]
  exact slashPiece_fannedOut

/-- Whether the envelope is the message that always has the same id. -/
def isSameMessage (envelope : Envelope) : Bool :=
  decide (envelope.messageId = .wire (Bytes.replicate 8 5))

private theorem sameMessage_told :
    ((runFrom HubCore.serve (sampleHub [])
      (joining linkOne alice "r")).handle
      ⟨ambientAt 1, sameMessage⟩).tellsRoom "r" isSameMessage = true := by
  decide +kernel

/-- The session of a closed link is gone, and the ids that it knew. -/
private theorem sameMessage_toldAgain :
    ((runFrom HubCore.serve (sampleHub [])
      (joining linkOne alice "r" ++
        [served sameMessage, served (.linkClosed linkOne)] ++
        joining linkOne alice "r")).handle
      ⟨ambientAt 1, sameMessage⟩).tellsRoom "r" isSameMessage = true := by
  decide +kernel

/-- A later piece of a notice may read like a command, and a link that was
closed and comes back may say again what it said before. -/
theorem relayIntegrity_limits :
    (∃ sent ∈ ((runFrom HubCore.serve noticeHub noticeComing).handle
        ⟨ambientAt 1, slashNotice⟩).out,
      ∃ target envelope, sent.FansOut slashNotice target envelope "r" ∧
        HubTurn.isSlashText envelope = true) ∧
    (∃ sent ∈ ((runFrom HubCore.serve (sampleHub [])
        (joining linkOne alice "r")).handle ⟨ambientAt 1, sameMessage⟩).out,
      ∃ target envelope, sent.FansOut sameMessage target envelope "r" ∧
        isSameMessage envelope = true) ∧
    ∃ sent ∈ ((runFrom HubCore.serve (sampleHub [])
        (joining linkOne alice "r" ++
          [served sameMessage, served (.linkClosed linkOne)] ++
          joining linkOne alice "r")).handle
        ⟨ambientAt 1, sameMessage⟩).out,
      ∃ target envelope, sent.FansOut sameMessage target envelope "r" ∧
        isSameMessage envelope = true :=
  ⟨HubTurn.fansOut_of_tellsRoom slashPiece_told _,
    HubTurn.fansOut_of_tellsRoom sameMessage_told sameMessage,
    HubTurn.fansOut_of_tellsRoom sameMessage_toldAgain sameMessage⟩

end Samples

end Ratspeak
