import Ratspeak.Hub.Bans

/-!
# Who gets into a room

Every step that makes an identity present in a room where it was not passed
the gates of the room, as they stood right before the step.  The one way past
them is to identify a link that is in the room already as another identity.
-/

namespace Ratspeak

open Library

/-- The identity has a link in the room. -/
def HubCore.Present (core : HubCore) (roomName : String) (identity : IdentityHash) : Prop :=
  ∃ room link, core.rooms.lookup roomName = some room ∧
    link ∈ room.members ∧ core.sessionIdentity link = some identity

theorem present_iff_roll (core : HubCore) (roomName : String) (identity : IdentityHash) :
    core.Present roomName identity ↔
      core.roll.present roomName identity := by
  constructor
  · rintro ⟨room, link, held, inside, proved⟩
    exact ⟨link, ⟨room, held, inside⟩, proved⟩
  · rintro ⟨link, ⟨room, held, inside⟩, proved⟩
    exact ⟨room, link, held, inside, proved⟩

/-- An operator of the hub or of the room, or somebody whom it invited. -/
def HubCore.Exempt (core : HubCore) (room : HubRoom)
    (identity : IdentityHash) (now : WallTime) : Prop :=
  identity ∈ core.serverOps ∨ identity ∈ room.ops ∨
    ∃ expires, room.invited.lookup identity = some expires ∧ now < expires

section Gate

variable [HubCrypto]

/-- The gates of a room are open to an identity that presents this text as
the key.  A lease opens the one of `+i` only. -/
structure HubCore.GateOpen (core : HubCore) (roomName : String)
    (identity : IdentityHash) (provided : Option String) (now : WallTime) : Prop where
  welcome : ¬ identity ∈ core.klines
  clear : ∀ room, core.rooms.lookup roomName = some room → ¬ identity ∈ room.bans
  invited : ∀ room, core.rooms.lookup roomName = some room →
    room.inviteOnly = true → core.Exempt room identity now ∨
      ∃ expires, room.rejoinUntil.lookup identity = some expires ∧ now < expires
  keyed : ∀ room digest, core.rooms.lookup roomName = some room →
    room.key = some digest → core.Exempt room identity now ∨
      ∃ key, provided = some key ∧ roomKeyMatches core.pepper roomName key digest = true

/-- The gates of the code are those of the statement. -/
theorem gates_of_joinRefusal {core : HubCore} {roomName : String}
    {room : HubRoom} {identity : IdentityHash} {provided : Option String} {now : WallTime}
    (passes : joinRefusal core roomName room identity provided now = none) :
    (room.inviteOnly = true → core.Exempt room identity now ∨
      ∃ expires, room.rejoinUntil.lookup identity = some expires ∧ now < expires) ∧
    (∀ digest, room.key = some digest → core.Exempt room identity now ∨
      ∃ key, provided = some key ∧
        roomKeyMatches core.pepper roomName key digest = true) := by
  unfold joinRefusal at passes
  extract_lets bypass keyed at passes
  have exempt : bypass = true → core.Exempt room identity now := by
    intro bypasses
    simp only [bypass, Bool.or_eq_true, decide_eq_true_eq,
      HubRoom.isInvited, Option.any_eq_true] at bypasses
    rcases bypasses with (server | operator) | invited
    · exact Or.inl server
    · exact Or.inr (Or.inl operator)
    · exact Or.inr (Or.inr invited)
  have gates : ¬ (room.inviteOnly &&
      !(bypass || room.canRejoin identity now)) = true ∧ ¬ keyed = true := by
    constructor
    · intro closed
      rw [if_pos closed] at passes
      cases passes
    · intro closed
      rw [if_pos closed] at passes
      split at passes
      · cases passes
      · cases passes
  refine ⟨fun inviteOnly => ?_, fun digest key => ?_⟩
  · by_cases bypasses : bypass = true
    · exact Or.inl (exempt bypasses)
    · have leased : room.canRejoin identity now = true := by
        simpa [inviteOnly, bypasses] using gates.1
      refine Or.inr ?_
      simpa [HubRoom.canRejoin, Option.any_eq_true] using leased
  · by_cases bypasses : bypass = true
    · exact Or.inl (exempt bypasses)
    · refine Or.inr ?_
      simp only [keyed, key, Option.any_some, bypasses, Bool.not_false, Bool.true_and] at gates
      cases provided with
      | none => simp at gates
      | some text => exact ⟨text, rfl, by simpa using gates.2⟩

theorem gateOpen_of_admits {core : HubCore} {roomName : String}
    {identity : IdentityHash} {provided : Option String} {now : WallTime}
    (welcome : ¬ identity ∈ core.klines)
    (passes : HubTurn.admits core roomName identity provided now = true) :
    core.GateOpen roomName identity provided now := by
  have refusal : ∀ room, core.rooms.lookup roomName = some room →
      joinRefusal core roomName room identity provided now = none := by
    intro room held
    simpa [HubTurn.admits, held] using passes
  exact ⟨welcome,
    fun room held => HubTurn.not_banned_of_joinRefusal (refusal room held),
    fun room held => (gates_of_joinRefusal (refusal room held)).1,
    fun room digest held =>
      (gates_of_joinRefusal (refusal room held)).2 digest⟩

end Gate

/-! ## Steps -/

/-- The text that an event presents as a key. -/
def HubInput.presented (input : HubInput) : Option String :=
  match input.event with
  | .linkPacket _ (some envelope) => envelope.textBody
  | _ => none

section Runs

variable [UnicodeTables] [HubCrypto]

/-- Whoever gets into a room by the step passes the gates before it. -/
def HubCore.AccessControlled (core : HubCore) (input : ServiceInput) :
    Prop :=
  ∀ roomName identity, (core.serve input).Present roomName identity →
    ¬ core.Present roomName identity →
      core.GateOpen roomName identity input.input.presented input.input.ambient.unix

/-- A link is identified as an identity that the gates of every room of the
link let in without a key, or that is in the room anyway. -/
def HubCore.RebindsAdmitted (core : HubCore) (input : ServiceInput) : Prop :=
  (input.input.event.identifies.all fun (link, identity) =>
    decide (identity ∈ core.klines) ||
      (FiniteMap.bindings core.rooms).all fun entry =>
        !decide (link ∈ entry.2.members) ||
          core.identityInRoom entry.2 identity ||
          HubTurn.admits core entry.1 identity none input.input.ambient.unix) = true

instance (core : HubCore) (input : ServiceInput) :
    Decidable (core.RebindsAdmitted input) :=
  inferInstanceAs (Decidable (_ = true))

theorem entering_eq_some {core : HubCore} {input : HubInput} {link : LinkId}
    {identity : IdentityHash} {roomName : String}
    (enters : core.entering input = some (link, identity, roomName)) :
    core.sessionIdentity link = some identity ∧
      HubTurn.admits core roomName identity input.presented
        input.ambient.unix = true := by
  obtain ⟨⟨sender, known, envelope⟩, delivered, enters⟩ :=
    Option.bind_eq_some_iff.mp enters
  obtain ⟨event, session, live, proved, -⟩ :=
    (core.delivered_eq_some_iff input sender known envelope).mp delivered
  dsimp only at enters
  split at enters
  · obtain ⟨name, named, equal⟩ := Option.map_eq_some_iff.mp enters
    obtain ⟨raw, -, normed⟩ := Option.bind_eq_some_iff.mp named
    obtain ⟨-, passes⟩ := Option.filter_eq_some_iff.mp normed
    cases equal
    refine ⟨by simp [HubCore.sessionIdentity, live, proved], ?_⟩
    rw [HubInput.presented, event]
    exact passes
  · cases enters

/-- Who is present after an event that binds no link was present before, or
the event enters a link of theirs. -/
theorem present_of_path {core : HubCore} {input : HubInput} {roll : HubRoll}
    {log : Roll.Log LinkId IdentityHash String} (path : Roll.Path (core.limitsOf input).permits
      (core.config.includeMemberList = true) core.roll
      (core.turn input.ambient).heard log roll)
    {roomName : String} {identity : IdentityHash} (present : roll.present roomName identity) :
    core.roll.present roomName identity ∨
      ∃ link, core.entering input = some (link, identity, roomName) := by
  have kept : ∀ (roll : HubRoll) (op : HubRollOp),
      ((∀ link known, roll.identity link = some known →
          core.roll.identity link = some known) ∧
        (roll.present roomName identity →
          core.roll.present roomName identity ∨
            ∃ link, core.entering input = some (link, identity, roomName))) →
      (core.limitsOf input).permits op → roll.Allows op →
      (∀ link known, (roll.apply op).identity link = some known →
          core.roll.identity link = some known) ∧
        ((roll.apply op).present roomName identity →
          core.roll.present roomName identity ∨
            ∃ link, core.entering input =
              some (link, identity, roomName)) := by
    rintro roll op ⟨identities, before⟩ permitted allowed
    have notBind : ∀ link known, op ≠ .bind link known := by
      rintro link known rfl
      exact permitted
    refine ⟨fun link known proved =>
      identities link known (Roll.identity_of_not_bind notBind proved),
      fun after => ?_⟩
    rcases Roll.present_of_apply notBind after with earlier | ⟨link, rfl, proved⟩
    · exact before earlier
    · obtain ⟨known, enters⟩ := permitted
      have own : core.roll.identity link = some identity :=
        identities link identity proved
      have same : known = identity :=
        Option.some.inj ((entering_eq_some enters).1.symm.trans own)
      exact Or.inr ⟨link, same ▸ enters⟩
  exact (path.induct kept ⟨fun _ _ => id, Or.inl⟩).2 present

omit [UnicodeTables] in
theorem HubCore.RebindsAdmitted.admitted {core : HubCore}
    {input : ServiceInput} (rebinds : core.RebindsAdmitted input)
    {link : LinkId} {identity : IdentityHash}
    (event : input.input.event = .linkIdentified link identity)
    (welcome : ¬ identity ∈ core.klines) {roomName : String}
    (member : core.roll.members roomName link) (absent : ¬ core.Present roomName identity) :
    HubTurn.admits core roomName identity none
      input.input.ambient.unix = true := by
  simp only [HubCore.RebindsAdmitted, event, HubEvent.identifies,
    Option.all_some, Bool.or_eq_true, decide_eq_true_eq, welcome, false_or]
    at rebinds
  obtain ⟨room, held, inside⟩ := member
  have each := List.all_eq_true.mp rebinds (roomName, room)
    ((FiniteMap.mem_bindings_iff _ _ _).mpr held)
  have elsewhere : core.identityInRoom room identity = false := by
    rw [Bool.eq_false_iff]
    intro found
    obtain ⟨other, otherInside, proved⟩ :=
      (core.identityInRoom_iff room identity).mp found
    exact absent ⟨room, other, held, otherInside, proved⟩
  simpa [inside, elsewhere] using each

theorem accessControlled_step {core : HubCore} {input : ServiceInput}
    (unlisted : core.Unlisted) (rebinds : core.RebindsAdmitted input) :
    core.AccessControlled input := by
  intro roomName identity after absent
  rw [present_iff_roll, roll_serve] at after
  have notBefore : ¬ core.roll.present roomName identity := fun before =>
    absent ((present_iff_roll core roomName identity).mpr before)
  by_cases seated : ∃ link, input.input.event = .linkEstablished link
  · obtain ⟨link, event⟩ := seated
    rw [step_linkEstablished event] at after
    exact absurd after notBefore
  · by_cases identified : ∃ link identity,
        input.input.event = .linkIdentified link identity
    · obtain ⟨link, known, event⟩ := identified
      by_cases klined : known ∈ core.klines
      · rw [step_linkIdentified_refused event klined] at after
        rcases Roll.present_of_apply (fun _ _ equal => by cases equal)
          after with before | ⟨other, equal, -⟩
        · exact absurd before notBefore
        · cases equal
      · rw [step_linkIdentified_bound event klined] at after
        obtain ⟨other, member, proved⟩ := after
        have same : other = link := by
          by_contra different
          refine notBefore ⟨other, member, ?_⟩
          simpa [Roll.apply, different] using proved
        subst same
        have equal : known = identity := by
          simpa [Roll.apply] using proved
        subst equal
        have presents : input.input.presented = none := by
          rw [HubInput.presented, event]
        rw [presents]
        exact gateOpen_of_admits klined (rebinds.admitted event klined member absent)
    · have traced := @traced_handle _ _ core input.input
        (fun link event => seated ⟨link, event⟩)
        fun link known event => identified ⟨link, known, event⟩
      rcases present_of_path traced.path after with before | ⟨link, enters⟩
      · exact absurd before notBefore
      · obtain ⟨proved, passes⟩ := entering_eq_some enters
        exact gateOpen_of_admits (unlisted link identity proved) passes

theorem unlisted_serve {core : HubCore} (unlisted : core.Unlisted)
    (input : ServiceInput) : (core.serve input).Unlisted := by
  intro link identity proved
  have earlier : (core.step input.input).sessionIdentity link =
      some identity :=
    (congrArg (fun roll : HubRoll => roll.identity link)
      (roll_serve core input)).symm.trans proved
  rw [klines_serve]
  exact unlisted_step unlisted input.input link identity earlier

/-- Access is controlled in every step of a run in which no link in a room is
identified as somebody whom the room would not let in. -/
theorem accessControlled_run (config : ChannelHubConfig)
    (hubHash : IdentityHash) (klines : FiniteSet IdentityHash)
    (admission : AdmissionState) (pepper : Bytes 32)
    (restored : List HubRoomRow) (ambient : Ambient) (inputs : List ServiceInput)
    (admitted : Along HubCore.serve HubCore.RebindsAdmitted
      (HubCore.new config hubHash klines admission pepper restored ambient)
      inputs) :
    Along HubCore.serve HubCore.AccessControlled
      (HubCore.new config hubHash klines admission pepper restored ambient)
      inputs := by
  have start : (HubCore.new config hubHash klines admission pepper restored
      ambient).Unlisted :=
    (unattended_new config hubHash klines admission pepper restored ambient).bansHold.unlisted
  exact along_of_invariant HubCore.Unlisted
    (fun core input unlisted _ => unlisted_serve unlisted input)
    (fun core input unlisted rebinds =>
      accessControlled_step unlisted rebinds)
    start admitted

end Runs

section Samples

attribute [local instance] asciiTables sampleCrypto

/-- A link in a room that is identified as an identity banned from the room
makes the banned identity present. -/
theorem reboundMember_past_gate :
    ¬ Along HubCore.serve HubCore.AccessControlled banningHub
      (joining linkOne alice "r" ++
        [served (.linkIdentified linkOne bob)]) := by
  intro controlled
  have last := ((along_append _ _ _ _ _).mp controlled).2.1
  have bansBob : ((runFrom HubCore.serve banningHub
      (joining linkOne alice "r")).rooms.lookup "r").any
      (fun room => decide (bob ∈ room.bans) &&
        !(runFrom HubCore.serve banningHub
          (joining linkOne alice "r")).identityInRoom room bob) = true := by
    decide +kernel
  have enters : ((runFrom HubCore.serve banningHub
      (joining linkOne alice "r" ++
        [served (.linkIdentified linkOne bob)])).rooms.lookup "r").any
      (fun room => (runFrom HubCore.serve banningHub
        (joining linkOne alice "r" ++
          [served (.linkIdentified linkOne bob)])).identityInRoom room
        bob) = true := by
    decide +kernel
  rw [runFrom_append] at enters
  obtain ⟨room, held, banned⟩ := (Option.any_eq_true _ _).mp bansBob
  obtain ⟨bans, absent⟩ := Bool.and_eq_true_iff.mp banned
  obtain ⟨after, afterHeld, present⟩ := (Option.any_eq_true _ _).mp enters
  obtain ⟨link, inside, proved⟩ :=
    (HubCore.identityInRoom_iff _ _ _).mp present
  refine (last "r" bob ⟨after, link, afterHeld, inside, proved⟩ ?_).clear
    room held (of_decide_eq_true bans)
  rintro ⟨found, other, foundHeld, otherInside, otherProved⟩
  have equal : found = room := Option.some.inj (foundHeld.symm.trans held)
  subst equal
  have inRoom := (HubCore.identityInRoom_iff _ _ _).mpr ⟨other, otherInside, otherProved⟩
  simp [inRoom] at absent

/-- A run in which the banned identity asks to join on a link of its own. -/
theorem accessControlled_refusedJoin :
    Along HubCore.serve HubCore.AccessControlled banningHub
      (joining linkOne alice "r" ++ joining linkTwo bob "r") :=
  accessControlled_run _ _ _ _ _ _ _ _ (by decide +kernel)

end Samples

end Ratspeak
