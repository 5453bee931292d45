import Ratspeak.Hub.Rosters

/-!
# The hub refines a roll

Every move of a turn is a path of operations on the roll: none for most of
them, one for entering, leaving, expelling and closing, several where an
identity is banned from the hub.  What members hear of each operation is what
the roll says they hear.  An event therefore is a path, too.
-/

namespace Ratspeak

open Library

/-! ## Seats -/

/-- The sessions agree as far as rooms are concerned. -/
def SameSeats (before after : HubCore) : Prop :=
  ∀ link, Option.Rel SameSeat (before.sessions.lookup link) (after.sessions.lookup link)

theorem sameSeats_of_eq {before after : HubCore}
    (same : after.sessions = before.sessions) : SameSeats before after := by
  intro link
  rw [same]
  cases before.sessions.lookup link with
  | none => exact .none
  | some session => exact .some ⟨rfl, rfl, rfl⟩

theorem rel_cases {α β : Type} {related : α → β → Prop}
    {first : Option α} {second : Option β} (relation : Option.Rel related first second) :
    (first = none ∧ second = none) ∨
      ∃ left right, first = some left ∧ second = some right ∧
        related left right := by
  cases relation with
  | none => exact Or.inl ⟨rfl, rfl⟩
  | some both => exact Or.inr ⟨_, _, rfl, rfl, both⟩

theorem SameSeats.cases {before after : HubCore}
    (same : SameSeats before after) (link : LinkId) :
    (before.sessions.lookup link = none ∧
        after.sessions.lookup link = none) ∨
      ∃ earlier later, before.sessions.lookup link = some earlier ∧
        after.sessions.lookup link = some later ∧ SameSeat earlier later :=
  rel_cases (same link)

/-- Who is where did not change; bans may have been lifted. -/
theorem roll_of_steady {before after : HubTurn} (steady : Steady before after)
    (seats : SameSeats before.core after.core) :
    after.core.roll =
      { before.core.roll with banned := after.core.roll.banned } := by
  have index : after.core.roll.index = before.core.roll.index := by
    simp only [HubCore.roll, steady.byIdentity]
  refine Roll.ext ?_ ?_ ?_ ?_ ?_ rfl index
  · funext link
    rcases seats.cases link with ⟨earlier, later⟩ | ⟨first, second, earlier, later, seat⟩
    · simp [HubCore.roll, earlier, later]
    · simp [HubCore.roll, earlier, later]
  · funext link
    exact steady.identities link
  · funext link
    rcases seats.cases link with ⟨earlier, later⟩ | ⟨first, second, earlier, later, seat⟩
    · simp [HubCore.roll, earlier, later]
    · simp [HubCore.roll, earlier, later, seat.2.1]
  · funext link room
    rcases seats.cases link with ⟨earlier, later⟩ | ⟨first, second, earlier, later, seat⟩
    · simp [HubCore.roll, earlier, later]
    · simp [HubCore.roll, earlier, later, seat.2.2]
  · funext room link
    exact propext (steady.members room link)

/-! ## Turns as paths -/

/-- What a turn did so far is a path on the roll. -/
structure Traced (permits : HubRollOp → Prop) (start : HubTurn)
    (turn : HubTurn) : Prop where
  config : turn.core.config = start.core.config
  path : Roll.Path permits (start.core.config.includeMemberList = true)
    start.core.roll start.heard turn.heard turn.core.roll

variable {permits : HubRollOp → Prop}

theorem traced_start (turn : HubTurn) : Traced permits turn turn :=
  ⟨rfl, .start⟩

theorem Traced.relaxed {start turn : HubTurn}
    {log : Roll.Log LinkId IdentityHash String} {roll : HubRoll}
    (relaxes : ∀ banned, permits (.relax banned))
    (path : Roll.Path permits (start.core.config.includeMemberList = true)
      start.core.roll start.heard log roll)
    (config : turn.core.config = start.core.config)
    (result : turn.core.roll = { roll with banned := turn.core.roll.banned })
    (shrinks : ∀ room identity, turn.core.roll.banned room identity → roll.banned room identity)
    (heard : turn.heard = log) : Traced permits start turn := by
  refine ⟨config, .step (.relax turn.core.roll.banned) path
    (relaxes _) shrinks result (fun _ _ => []) (fun listener room => ?_)
    fun _ _ _ => rfl⟩
  rw [heard, List.append_nil]

theorem Traced.steady {start before after : HubTurn}
    (relaxes : ∀ banned, permits (.relax banned))
    (traced : Traced permits start before) (steady : Steady before after)
    (seats : SameSeats before.core after.core) :
    Traced permits start after :=
  .relaxed relaxes traced.path (steady.config.trans traced.config)
    (roll_of_steady steady seats) steady.banned steady.heard

/-- What a listener hears in a part of a turn. -/
def heardSince (before after : HubTurn) :
    Roll.Log LinkId IdentityHash String := fun listener room =>
  (after.heard listener room).drop (before.heard listener room).length

theorem heardSince_append {before after : HubTurn} {listener : LinkId} {room : String}
    (grows : before.heard listener room <+: after.heard listener room) :
    after.heard listener room =
      before.heard listener room ++ heardSince before after listener room := by
  obtain ⟨more, equal⟩ := grows
  rw [heardSince, ← equal, List.drop_left]

theorem heardSince_of_append {before after : HubTurn} {listener : LinkId}
    {room : String} {notes : List (RosterNote IdentityHash)}
    (equal : after.heard listener room = before.heard listener room ++ notes) :
    heardSince before after listener room = notes := by
  rw [heardSince, equal, List.drop_left]

theorem heardSince_of_eq {before after : HubTurn} {listener : LinkId} {room : String}
    (equal : after.heard listener room = before.heard listener room) :
    heardSince before after listener room = [] :=
  heardSince_of_append (by rw [equal, List.append_nil])

/-- An operation, and bans that were lifted with it. -/
theorem Traced.step {start before after : HubTurn} (op : HubRollOp)
    (relaxes : ∀ banned, permits (.relax banned)) (permitted : permits op)
    (traced : Traced permits start before) (allowed : before.core.roll.Allows op)
    (config : after.core.config = before.core.config) (result : after.core.roll =
      { before.core.roll.apply op with banned := after.core.roll.banned })
    (shrinks : ∀ room identity, after.core.roll.banned room identity →
      (before.core.roll.apply op).banned room identity)
    (grows : ∀ listener room, before.heard listener room <+: after.heard listener room)
    (heard : before.core.config.includeMemberList = true →
      ∀ listener room, before.core.roll.Heard op listener room
        (heardSince before after listener room)) :
    Traced permits start after := by
  refine .relaxed relaxes (.step op traced.path permitted allowed rfl
    (heardSince before after) (fun listener room => ?_) fun told => ?_)
    (config.trans traced.config) result shrinks rfl
  · exact heardSince_append (grows listener room)
  · exact heard (traced.config.symm ▸ told)

/-! ## Departures -/

/-- Departures of one identity from one room are heard as the roll has it. -/
theorem Departed.heardSince {leaving : String → LinkId → Prop}
    {identity : IdentityHash} {before after : HubTurn}
    (departed : Departed leaving identity before after)
    (told : before.core.config.includeMemberList = true)
    {listener : LinkId} {room : String} (stays : ¬ leaving room listener) :
    ((∀ link, ¬ leaving room link) → Ratspeak.heardSince before after listener room = []) ∧
    (before.core.roll.members room listener →
      (∃ link, leaving room link) →
      (before.core.StillIn room identity (leaving room) →
        Ratspeak.heardSince before after listener room = []) ∧
      (¬ before.core.StillIn room identity (leaving room) →
        Ratspeak.heardSince before after listener room = [.parted identity])) :=
  ⟨fun none => heardSince_of_eq
      (departed.quiet told listener room stays (Or.inl none)),
    fun member leaves =>
      ⟨fun present => heardSince_of_eq
          (departed.quiet told listener room stays (Or.inr present)),
        fun gone => heardSince_of_append
          (departed.told told listener room stays member leaves gone)⟩⟩

theorem traced_leave {start before : HubTurn} {roomName : String}
    {link : LinkId} {identity : IdentityHash} (relaxes : ∀ banned, permits (.relax banned))
    (permitted : permits (.leave link roomName)) (traced : Traced permits start before)
    (identified : before.core.sessionIdentity link = some identity) :
    Traced permits start (before.leaveRoom roomName link identity) := by
  obtain ⟨left, departed, sessions, result⟩ :=
    before.departed_leaveRoom roomName link identity
  rw [result]
  have pushed : ∀ listener room, listener ≠ link →
      heardSince before (left.push (.envelope link
          (left.partedEnvelope roomName identity none))) listener room =
        heardSince before left listener room := by
    intro listener room other
    rw [heardSince, heardSince, HubTurn.heard_push]
    have silent : Sent.notes listener room ⟨.envelope link
        (left.partedEnvelope roomName identity none), left.core⟩ = [] := by
      unfold Sent.notes
      dsimp only
      rw [if_neg]
      rintro ⟨same, -⟩
      exact other same.symm
    rw [silent, List.append_nil]
  refine Traced.step (.leave link roomName) relaxes permitted traced trivial
    departed.config ?_ departed.banned (fun listener room => ?_)
    fun told listener room => ?_
  · have identities := departed.identities
    refine Roll.ext ?_ (funext identities) ?_ ?_ ?_ rfl ?_
    · funext other
      simp only [HubCore.roll, HubTurn.push_core, sessions, Roll.apply, FiniteMap.lookup_adjust]
      split
      · rename_i same
        rw [same, Option.isSome_map]
      · rfl
    · funext other
      simp only [HubCore.roll, HubTurn.push_core, sessions, Roll.apply, FiniteMap.lookup_adjust]
      split
      · rename_i same
        rw [same]
        cases before.core.sessions.lookup link with
        | none => simp
        | some session => simp
      · rfl
    · funext other room
      simp only [HubCore.roll, HubTurn.push_core, sessions, Roll.apply, FiniteMap.lookup_adjust]
      by_cases same : other = link
      · subst same
        cases before.core.sessions.lookup other with
        | none => simp
        | some session => simp [and_comm]
      · simp [same]
    · funext room other
      exact propext (departed.members room other)
    · exact congrArg (fun table : FiniteMap IdentityHash LinkId =>
        fun known => table.lookup known) departed.byIdentity
  · exact (departed.grows listener room).trans
      (HubTurn.heard_prefix (List.prefix_append _ _) listener room)
  · intro other member
    rw [pushed listener room other]
    have stays : ¬ (room = roomName ∧ listener = link) := fun leaves =>
      other leaves.2
    obtain ⟨none, some⟩ := departed.heardSince told stays
    refine ⟨?_, fun elsewhere => none fun gone leaves => elsewhere leaves.1.symm⟩
    rintro rfl known proved
    have equal : identity = known :=
      Option.some.inj (identified.symm.trans proved)
    subst equal
    obtain ⟨quiet, parted⟩ := some member ⟨link, rfl, rfl⟩
    have still : (before.core.roll.apply (.leave link roomName)).present
        roomName identity ↔
        before.core.StillIn roomName identity
          (fun other => roomName = roomName ∧ other = link) := by
      constructor
      · rintro ⟨found, ⟨inside, kept⟩, known⟩
        exact ⟨found, inside, kept, known⟩
      · rintro ⟨found, inside, kept, known⟩
        exact ⟨found, ⟨inside, kept⟩, known⟩
    unfold Roll.departureNotes
    split
    · rename_i present
      exact quiet (still.mp present)
    · rename_i gone
      exact parted fun present => gone (still.mpr present)

/-- The turns differ in bans only, as far as the roll is concerned. -/
structure Touched (before after : HubTurn) : Prop where
  sessions : after.core.sessions = before.core.sessions
  config : after.core.config = before.core.config
  byIdentity : after.core.byIdentity = before.core.byIdentity
  members : ∀ room link, after.core.roll.members room link ↔ before.core.roll.members room link
  heard : after.heard = before.heard

/-- Turning an identity out of a room, which may ban it first. -/
theorem traced_expel {start before after : HubTurn} (middle : HubTurn)
    {roomName : String} {target : IdentityHash} {ban : Bool}
    (relaxes : ∀ banned, permits (.relax banned))
    (permitted : permits (.expel roomName target ban))
    (traced : Traced permits start before) (touched : Touched before middle)
    (bans : ∀ room other, middle.core.roll.banned room other →
      (before.core.roll.apply (.expel roomName target ban)).banned room other)
    (departed : Departed (fun name link => name = roomName ∧
      middle.core.roll.members roomName link ∧
      middle.core.sessionIdentity link = some target) target middle after)
    (sessions : ∀ link, after.core.sessions.lookup link =
      if link ∈ middle.core.roomLinksForIdentity roomName target then
        (middle.core.sessions.lookup link).map fun session =>
          { session with rooms := session.rooms.erase roomName }
      else middle.core.sessions.lookup link) :
    Traced permits start after := by
  have identities : ∀ link, middle.core.sessionIdentity link =
      before.core.sessionIdentity link := by
    intro link
    rw [HubCore.sessionIdentity, touched.sessions]
    rfl
  have since : ∀ listener room, heardSince before after listener room =
      heardSince middle after listener room := by
    intro listener room
    rw [heardSince, heardSince, touched.heard]
  refine Traced.step (.expel roomName target ban) relaxes permitted traced
    trivial (departed.config.trans touched.config) ?_
    (fun room other banned => bans room other
      (departed.banned room other banned))
    (fun listener room => touched.heard ▸ departed.grows listener room)
    fun told listener room member => ?_
  · refine Roll.ext ?_ ?_ ?_ ?_ ?_ rfl ?_
    · funext link
      simp only [HubCore.roll, sessions, Roll.apply, touched.sessions]
      split
      · rw [Option.isSome_map]
      · rfl
    · funext link
      exact (departed.identities link).trans (identities link)
    · funext link
      simp only [HubCore.roll, sessions, Roll.apply, touched.sessions]
      split
      · cases before.core.sessions.lookup link with
        | none => simp
        | some session => simp
      · rfl
    · funext link room
      have known := HubTurn.mem_roomLinksForIdentity middle.core roomName target link
      rw [touched.members, identities] at known
      apply propext
      simp only [HubCore.roll, sessions, Roll.apply, touched.sessions]
      by_cases leaves : link ∈ middle.core.roomLinksForIdentity roomName target
      · rw [if_pos leaves]
        obtain ⟨inside, proved⟩ := known.mp leaves
        cases before.core.sessions.lookup link with
        | none => simp
        | some session =>
            simp only [Option.map_some, Option.some.injEq, exists_eq_left', FiniteSet.mem_erase]
            constructor
            · rintro ⟨other, joined⟩
              exact ⟨joined, fun gone => other gone.1⟩
            · rintro ⟨joined, stays⟩
              exact ⟨fun same => stays ⟨same, inside, proved⟩, joined⟩
      · rw [if_neg leaves]
        constructor
        · intro joined
          exact ⟨joined, fun gone => leaves (known.mpr ⟨gone.2.1, gone.2.2⟩)⟩
        · exact And.left
    · funext room link
      apply propext
      rw [departed.members room link, touched.members, touched.members, identities]
      simp only [Roll.apply]
      constructor
      · rintro ⟨inside, stays⟩
        exact ⟨inside, fun gone =>
          stays ⟨gone.1, gone.1 ▸ inside, gone.2⟩⟩
      · rintro ⟨inside, stays⟩
        exact ⟨inside, fun gone => stays ⟨gone.1, gone.2.2⟩⟩
    · exact congrArg (fun table : FiniteMap IdentityHash LinkId =>
        fun known => table.lookup known)
        (departed.byIdentity.trans touched.byIdentity)
  · rw [since]
    have stays : ¬ (room = roomName ∧
        middle.core.roll.members roomName listener ∧
        middle.core.sessionIdentity listener = some target) := fun leaves =>
      member.2 ⟨leaves.1, (identities listener).symm.trans leaves.2.2⟩
    obtain ⟨none, some⟩ := departed.heardSince (touched.config ▸ told) stays
    refine ⟨?_, fun elsewhere => none fun gone leaves =>
      elsewhere leaves.1.symm⟩
    rintro rfl
    constructor
    · rintro ⟨link, inside, proved⟩
      have leaves : roomName = roomName ∧
          middle.core.roll.members roomName link ∧
          middle.core.sessionIdentity link = Option.some target :=
        ⟨rfl, (touched.members roomName link).mpr inside, (identities link).trans proved⟩
      refine (some ((touched.members roomName listener).mpr member.1) ⟨link, leaves⟩).2 ?_
      rintro ⟨other, otherInside, kept, otherProved⟩
      exact kept ⟨rfl, otherInside, otherProved⟩
    · intro absent
      exact none fun link leaves => absent
        ⟨link, (touched.members roomName link).mp leaves.2.1,
          (identities link).symm.trans leaves.2.2⟩

/-- A session ends, and its link is out of its rooms. -/
theorem traced_endSession {start before after : HubTurn} {link : LinkId}
    (relaxes : ∀ banned, permits (.relax banned)) (permitted : permits (.close link))
    (traced : Traced permits start before)
    (sessions : after.core.sessions = before.core.sessions.erase link)
    (config : after.core.config = before.core.config)
    (index : ∀ known, after.core.byIdentity.lookup known =
      if before.core.sessionIdentity link = some known ∧
          before.core.byIdentity.lookup known = some link then none
      else before.core.byIdentity.lookup known)
    (members : ∀ room other, after.core.roll.members room other ↔
      before.core.roll.members room other ∧
        ¬ (other = link ∧ before.core.roll.joined link room ∧
          (before.core.sessionIdentity link).isSome = true))
    (banned : ∀ room other, after.core.roll.banned room other →
      before.core.roll.banned room other)
    (grows : ∀ listener room, before.heard listener room <+: after.heard listener room)
    (elsewhere : before.core.config.includeMemberList = true →
      ∀ listener room, listener ≠ link →
        before.core.roll.members room listener →
        ¬ before.core.roll.joined link room →
        heardSince before after listener room = [])
    (there : before.core.config.includeMemberList = true →
      ∀ listener room identity, listener ≠ link →
        before.core.roll.members room listener →
        before.core.roll.joined link room →
        before.core.sessionIdentity link = some identity →
        (before.core.StillIn room identity (· = link) →
          heardSince before after listener room = []) ∧
        (¬ before.core.StillIn room identity (· = link) →
          heardSince before after listener room = [.parted identity])) :
    Traced permits start after := by
  have identities : ∀ other, after.core.sessionIdentity other =
      if other = link then none else before.core.sessionIdentity other := by
    intro other
    rw [HubCore.sessionIdentity, sessions, FiniteMap.lookup_erase_ite]
    split
    · rfl
    · rfl
  refine Traced.step (.close link) relaxes permitted traced trivial config ?_
    banned grows fun told listener room other member =>
      ⟨fun joined identity proved => ?_,
        elsewhere told listener room other member⟩
  · refine Roll.ext ?_ ?_ ?_ ?_ ?_ rfl (funext index)
    · funext other
      simp only [HubCore.roll, sessions, FiniteMap.lookup_erase_ite, Roll.apply]
      by_cases same : other = link
      · simp [same]
      · simp [same]
    · funext other
      rw [show after.core.roll.identity other =
        after.core.sessionIdentity other from rfl, identities]
      by_cases same : other = link
      · simp [same, Roll.apply]
      · simp [same, Roll.apply, HubCore.roll]
    · funext other
      simp only [HubCore.roll, sessions, FiniteMap.lookup_erase_ite, Roll.apply]
      by_cases same : other = link
      · simp [same]
      · simp [same]
    · funext other room
      simp only [HubCore.roll, sessions, FiniteMap.lookup_erase_ite, Roll.apply]
      by_cases same : other = link
      · simp [same]
      · simp [same]
    · funext room other
      exact propext (members room other)
  · obtain ⟨quiet, parted⟩ :=
      there told listener room identity other member joined proved
    have still : (before.core.roll.apply (.close link)).present room
        identity ↔ before.core.StillIn room identity (· = link) := by
      constructor
      · rintro ⟨found, ⟨inside, -⟩, known⟩
        by_cases same : found = link
        · simp [Roll.apply, same] at known
        · refine ⟨found, inside, same, ?_⟩
          have unchanged : (before.core.roll.apply (.close link)).identity
              found = before.core.sessionIdentity found :=
            Function.update_of_ne same _ _
          exact unchanged.symm.trans known
      · rintro ⟨found, inside, different, known⟩
        refine ⟨found, ⟨inside, fun gone => different gone.1⟩, ?_⟩
        have unchanged : (before.core.roll.apply (.close link)).identity
            found = before.core.sessionIdentity found :=
          Function.update_of_ne different _ _
        exact unchanged.trans known
    unfold Roll.departureNotes
    split
    · rename_i present
      exact quiet (still.mp present)
    · rename_i gone
      exact parted fun present => gone (still.mpr present)

theorem HubTurn.unindexLink_eq (turn : HubTurn) (identity : IdentityHash) (link : LinkId) :
    ∃ byIdentity : FiniteMap IdentityHash LinkId,
      turn.unindexLink identity link =
        turn.mapCore (fun core => { core with byIdentity := byIdentity }) ∧
      ∀ known, byIdentity.lookup known =
        if known = identity ∧ turn.core.byIdentity.lookup identity = some link then none
        else turn.core.byIdentity.lookup known := by
  unfold HubTurn.unindexLink HubTurn.mapCore
  by_cases indexed : turn.core.byIdentity.lookup identity = some link
  · refine ⟨turn.core.byIdentity.erase identity, by
      simp only [if_pos indexed], fun known => ?_⟩
    rw [FiniteMap.lookup_erase_ite]
    simp [indexed]
  · exact ⟨turn.core.byIdentity, by simp only [if_neg indexed],
      fun known => by simp [indexed]⟩

/-- A session that ends takes its link out of its rooms. -/
theorem traced_close {start before : HubTurn} {link : LinkId}
    {reason : HubSessionCloseReason} (relaxes : ∀ banned, permits (.relax banned))
    (permitted : permits (.close link)) (traced : Traced permits start before) :
    Traced permits start (before.closeSession link reason) := by
  have forgets : Steady before (before.modifyAdmission fun admission =>
      admission.forgetLink link) :=
    ⟨fun _ => rfl, rfl, rfl, fun _ _ => Iff.rfl, fun _ _ => id, rfl⟩
  have forgotten := traced.steady relaxes forgets (sameSeats_of_eq rfl)
  unfold HubTurn.closeSession
  extract_lets forgetting grace expires
  change Traced permits start forgetting at forgotten
  cases live : forgetting.core.sessions.lookup link with
  | none => exact forgotten
  | some session =>
      dsimp only
      have joinedIff : ∀ room, forgetting.core.roll.joined link room ↔
          room ∈ session.rooms := by
        intro room
        simp [HubCore.roll, live]
      cases identified : session.identity with
      | none =>
          have unproved : forgetting.core.sessionIdentity link = none := by
            simp [HubCore.sessionIdentity, live, identified]
          refine traced_endSession relaxes permitted forgotten rfl rfl ?_ ?_
            (fun _ _ => id) (fun _ _ => List.prefix_rfl) ?_ ?_
          · intro known
            simp [unproved]
          · intro room other
            simp [unproved, HubCore.roll]
          · intro told listener room other member outside
            exact heardSince_of_eq rfl
          · intro told listener room identity other member joined proved
            rw [unproved] at proved
            cases proved
      | some identity =>
          have proved : forgetting.core.sessionIdentity link =
              some identity := by
            simp [HubCore.sessionIdentity, live, identified]
          have departed := HubTurn.departed_leaveRooms expires link identity
            session.nickname session.rooms.nodup
            (forgetting.unindexLink identity link)
          have sessions := HubTurn.leaveRooms_sessions expires link identity
            session.nickname session.rooms.toList
            (forgetting.unindexLink identity link)
          obtain ⟨byIdentity, unindexed, dropped⟩ :=
            forgetting.unindexLink_eq identity link
          rw [unindexed] at departed sessions
          dsimp only
          rw [unindexed]
          have left : ∀ room other,
              ¬ (room ∈ session.rooms.toList ∧ other = link) ↔
                ¬ (other = link ∧ forgetting.core.roll.joined link room ∧
                  (forgetting.core.sessionIdentity link).isSome = true) := by
            intro room other
            rw [joinedIff, proved, FiniteSet.mem_toList]
            simp [and_comm]
          refine traced_endSession relaxes permitted forgotten ?_
            departed.config ?_ ?_ departed.banned departed.grows ?_ ?_
          · simp only [HubTurn.mapCore_core, sessions]
          · intro known
            simp only [HubTurn.mapCore_core, departed.byIdentity, dropped,
              proved, Option.some.injEq]
            by_cases same : known = identity
            · subst same
              simp
            · have other : ¬ identity = known := fun equal => same equal.symm
              simp [same, other]
          · intro room other
            rw [← left]
            exact departed.members room other
          · intro told listener room other member outside
            refine heardSince_of_eq (departed.quiet told listener room
              (fun leaves => other leaves.2)
              (Or.inl fun someone leaves => outside ?_))
            exact (joinedIff room).mpr leaves.1
          · intro told listener room known other member joined knownProved
            have equal : identity = known :=
              Option.some.inj (proved.symm.trans knownProved)
            subst equal
            have inside := (joinedIff room).mp joined
            have stays : ¬ (room ∈ session.rooms.toList ∧ listener = link) :=
              fun leaves => other leaves.2
            have still : forgetting.core.StillIn room identity
                (fun someone => room ∈ session.rooms.toList ∧
                  someone = link) ↔
                forgetting.core.StillIn room identity (· = link) := by
              have sameLeaving : (fun someone =>
                  room ∈ session.rooms.toList ∧ someone = link) =
                  (· = link) := by
                funext someone
                exact propext ⟨And.right, fun same => ⟨inside, same⟩⟩
              rw [sameLeaving]
            obtain ⟨quiet, parted⟩ := (departed.heardSince told stays).2
              member ⟨link, inside, rfl⟩
            exact ⟨fun present => quiet (still.mpr present),
              fun gone => parted fun present => gone (still.mp present)⟩

/-! ## Arrivals -/

theorem traced_enter {start before : HubTurn} {roomName : String}
    {link : LinkId} {identity : IdentityHash} {session : HubSession}
    {room : HubRoom} (relaxes : ∀ banned, permits (.relax banned))
    (permitted : permits (.enter link roomName)) (traced : Traced permits start before)
    (live : before.core.sessions.lookup link = some session)
    (identified : session.identity = some identity) (welcomed : session.welcomed = true)
    (held : before.core.rooms.lookup roomName = some room) (clear : ¬ identity ∈ room.bans) :
    Traced permits start (before.enterRoom roomName link identity) := by
  have proved : before.core.sessionIdentity link = some identity := by
    simp [HubCore.sessionIdentity, live, identified]
  have seated := HubTurn.seated_enterRoom held link identity
  obtain ⟨after, afterHeld, roster⟩ := HubTurn.roster_enterRoom held proved
  refine Traced.step (.enter link roomName) relaxes permitted traced ?_
    seated.config ?_ seated.banned seated.grows fun told listener name => ?_
  · refine ⟨by simp [HubCore.roll, live], ⟨session, live, welcomed⟩,
      identity, proved, ?_⟩
    rintro ⟨found, foundHeld, banned⟩
    have equal : found = room := Option.some.inj (foundHeld.symm.trans held)
    exact clear (equal ▸ banned)
  · refine Roll.ext ?_ (funext seated.identities) ?_ ?_ ?_ rfl ?_
    · funext other
      simp only [HubCore.roll, seated.sessions, Roll.apply, FiniteMap.lookup_adjust]
      split
      · rename_i same
        rw [same, Option.isSome_map]
      · rfl
    · funext other
      simp only [HubCore.roll, seated.sessions, Roll.apply, FiniteMap.lookup_adjust]
      by_cases same : other = link
      · subst same
        simp [live]
      · simp [same]
    · funext other place
      simp only [HubCore.roll, seated.sessions, Roll.apply, FiniteMap.lookup_adjust]
      by_cases same : other = link
      · subst same
        simp [live]
      · simp [same]
    · funext place other
      exact propext ((seated.members place other).trans or_comm)
    · exact congrArg (fun table : FiniteMap IdentityHash LinkId =>
        fun known => table.lookup known) seated.byIdentity
  · have heard := HubTurn.heard_enterRoom held told link identity afterHeld
      listener name
    have present : (before.core.roll.present roomName identity) ↔
        before.core.identityInRoom room identity = true := by
      rw [HubCore.identityInRoom_iff]
      constructor
      · rintro ⟨other, ⟨found, foundHeld, member⟩, known⟩
        have equal : found = room :=
          Option.some.inj (foundHeld.symm.trans held)
        exact ⟨other, equal ▸ member, known⟩
      · rintro ⟨other, member, known⟩
        exact ⟨other, ⟨room, held, member⟩, known⟩
    have afterRoll : (before.core.roll.apply (.enter link roomName)).present
        roomName = (before.enterRoom roomName link
          identity).core.roll.present roomName := by
      funext known
      simp only [Roll.present]
      refine propext (exists_congr fun other => ?_)
      refine and_congr ?_ ?_
      · exact or_comm.trans (seated.members roomName other).symm
      · exact Iff.of_eq (congrArg (· = some known) (seated.identities other).symm)
    by_cases self : listener = link
    · subst self
      rw [if_neg (fun both => both.2.1 rfl), List.append_nil] at heard
      simp only [Roll.Heard, if_true]
      constructor
      · rintro rfl
        rw [if_pos ⟨rfl, rfl⟩] at heard
        exact ⟨_, heardSince_of_append heard, fun known => by
          rw [afterRoll]
          exact roster known⟩
      · intro elsewhere
        rw [if_neg (fun both => elsewhere both.2.symm),
          List.append_nil] at heard
        exact heardSince_of_eq heard
    · rw [if_neg (c := listener = link ∧ name = roomName)
        (fun both => self both.1), List.append_nil] at heard
      simp only [Roll.Heard, self, if_false]
      rintro ⟨found, foundHeld, member⟩
      refine ⟨?_, fun elsewhere => ?_⟩
      · rintro rfl known knownProved
        have equal : identity = known :=
          Option.some.inj (proved.symm.trans knownProved)
        subst equal
        have foundEqual : found = room :=
          Option.some.inj (foundHeld.symm.trans held)
        subst foundEqual
        constructor
        · intro already
          rw [if_neg (fun test => test.2.2.2 (present.mp already)),
            List.append_nil] at heard
          exact heardSince_of_eq heard
        · intro absent
          rw [if_pos ⟨rfl, self, member, fun already => absent (present.mpr already)⟩] at heard
          exact heardSince_of_append heard
      · rw [if_neg (fun test => elsewhere test.1.symm),
          List.append_nil] at heard
        exact heardSince_of_eq heard

theorem traced_welcome {start before : HubTurn} {link : LinkId}
    (relaxes : ∀ banned, permits (.relax banned)) (permitted : permits (.welcome link))
    (traced : Traced permits start before) :
    Traced permits start
      (before.modifySession link fun session =>
        { session with welcomed := true }) := by
  have steady : Steady before (before.modifySession link fun session =>
      { session with welcomed := true }) := by
    refine before.steady_modifySession link fun _ => ?_
    rfl
  cases live : before.core.sessions.lookup link with
  | none =>
      refine traced.steady relaxes steady fun other => ?_
      simp only [HubTurn.modifySession, HubTurn.mapCore_core, FiniteMap.lookup_adjust]
      split
      · rename_i same
        rw [same, live]
        exact .none
      · cases before.core.sessions.lookup other with
        | none => exact .none
        | some session => exact .some ⟨rfl, rfl, rfl⟩
  | some session =>
      refine Traced.step (.welcome link) relaxes permitted traced
        (by simp [Roll.Allows, HubCore.roll, live]) rfl ?_ steady.banned
        (fun _ _ => List.prefix_rfl) fun _ _ _ => heardSince_of_eq rfl
      refine Roll.ext ?_ (funext steady.identities) ?_ ?_ rfl rfl rfl
      · funext other
        simp only [HubCore.roll, Roll.apply, HubTurn.modifySession,
          HubTurn.mapCore_core, FiniteMap.lookup_adjust]
        split
        · rename_i same
          rw [same, Option.isSome_map]
        · rfl
      · funext other
        simp only [HubCore.roll, Roll.apply, HubTurn.modifySession,
          HubTurn.mapCore_core, FiniteMap.lookup_adjust]
        by_cases same : other = link
        · subst same
          simp [live]
        · simp [same]
      · funext other room
        simp only [HubCore.roll, Roll.apply, HubTurn.modifySession,
          HubTurn.mapCore_core, FiniteMap.lookup_adjust]
        by_cases same : other = link
        · subst same
          simp [live]
        · simp [same]

/-! ## Moves as paths -/

namespace HubTurn

theorem steady_mapCore (turn : HubTurn) (change : HubCore → HubCore)
    (sessions : (change turn.core).sessions = turn.core.sessions)
    (rooms : (change turn.core).rooms = turn.core.rooms)
    (byIdentity : (change turn.core).byIdentity = turn.core.byIdentity)
    (config : (change turn.core).config = turn.core.config) :
    Steady turn (turn.mapCore change) := by
  refine ⟨fun link => ?_, config, byIdentity, fun name link => ?_,
    fun name other banned => ?_, rfl⟩
  · simp only [HubCore.sessionIdentity, mapCore_core, sessions]
  · simp only [HubCore.roll, mapCore_core, rooms]
  · simpa only [HubCore.roll, mapCore_core, rooms] using banned

theorem steady_of_announces {before after : HubTurn}
    (answers : Announces before after) : Steady before after := by
  have core := answers.core_eq
  exact ⟨fun link => by rw [core], by rw [core], by rw [core],
    fun name link => by rw [core], fun name other banned => by
      rwa [core] at banned, heard_of_announces answers⟩

theorem steady_fanOut (turn : HubTurn) (room : HubRoom)
    {envelope : Envelope} (content : envelope.isRoster = false) :
    Steady turn (turn.fanOut room envelope) := by
  refine ⟨fun link => by rw [fanOut, pushAll_core],
    by rw [fanOut, pushAll_core], by rw [fanOut, pushAll_core],
    fun name link => by rw [fanOut, pushAll_core],
    fun name other banned => by rwa [fanOut, pushAll_core] at banned, ?_⟩
  funext listener name
  rw [fanOut, heard_pushAll, List.flatMap_eq_nil_iff.mpr, List.append_nil]
  intro send member
  obtain ⟨link, -, rfl⟩ := List.mem_map.mp member
  exact notes_of_not_roster content link listener name turn.core

/-- Replacing rooms by others with the same members and fewer bans. -/
theorem steady_rooms (turn : HubTurn) {rooms : FiniteMap String HubRoom}
    (same : ∀ roomName, Option.Rel
      (fun before after : HubRoom => after.members = before.members ∧
        ∀ identity, identity ∈ after.bans → identity ∈ before.bans)
      (turn.core.rooms.lookup roomName) (rooms.lookup roomName)) :
    Steady turn { turn with core := { turn.core with rooms := rooms } } := by
  refine ⟨fun _ => rfl, rfl, rfl, fun name link => ?_,
    fun name other banned => ?_, rfl⟩
  · simp only [HubCore.roll]
    rcases rel_cases (same name) with ⟨first, second⟩ |
      ⟨earlier, later, first, second, members, -⟩
    · simp [first, second]
    · simp [first, second, members]
  · obtain ⟨room, held, inside⟩ := banned
    rcases rel_cases (same name) with ⟨first, second⟩ | ⟨earlier, later, first, second, -, bans⟩
    · rw [second] at held
      cases held
    · rw [second] at held
      cases held
      exact ⟨earlier, first, bans other inside⟩

theorem steady_persistKlines (turn : HubTurn) (origin : Option LinkId) :
    Steady turn (turn.persistKlines origin) :=
  (turn.steady_mapCore _ rfl rfl rfl rfl).trans (steady_pushPersist _ _ _ _)

theorem steady_recordKline (turn : HubTurn) (target : IdentityHash) (origin : Option LinkId) :
    Steady turn (turn.recordKline target origin) := by
  have revoked : Steady turn (turn.mapCore fun core =>
      { core with
        rooms := FiniteMap.mapValues
          (fun _ room =>
            { room with rejoinUntil := room.rejoinUntil.erase target })
          core.rooms }) := by
    refine turn.steady_rooms fun roomName => ?_
    rw [FiniteMap.lookup_mapValues]
    cases turn.core.rooms.lookup roomName with
    | none => exact .none
    | some room => exact .some ⟨rfl, fun _ => id⟩
  have listed := steady_mapCore (turn.mapCore fun core =>
      { core with
        rooms := FiniteMap.mapValues
          (fun _ room =>
            { room with rejoinUntil := room.rejoinUntil.erase target })
          core.rooms })
    (fun core => { core with klines := core.klines.insert target })
    rfl rfl rfl rfl
  exact (revoked.trans listed).trans (steady_persistKlines _ origin)

theorem steady_eraseRoom {turn : HubTurn} {roomName : String}
    (empty : ∀ room, turn.core.rooms.lookup roomName = some room →
      room.members.isEmpty = true) :
    Steady turn (turn.mapCore fun core =>
      { core with
        rooms := core.rooms.erase roomName
        roomTokens := core.roomTokens.erase roomName }) := by
  refine ⟨fun _ => rfl, rfl, rfl, fun name link => ?_,
    fun name other banned => ?_, rfl⟩
  · simp only [HubCore.roll, mapCore_core, FiniteMap.lookup_erase_ite]
    split
    · rename_i same
      subst same
      constructor
      · rintro ⟨found, gone, -⟩
        cases gone
      · rintro ⟨found, foundHeld, member⟩
        exact absurd member ((FiniteSet.isEmpty_iff _).mp (empty found foundHeld) link)
    · exact Iff.rfl
  · obtain ⟨found, foundHeld, inside⟩ := banned
    simp only [mapCore_core, FiniteMap.lookup_erase_ite] at foundHeld
    split at foundHeld
    · cases foundHeld
    · exact ⟨found, foundHeld, inside⟩

theorem steady_dropIfEmpty (turn : HubTurn) (roomName : String) :
    Steady turn (turn.dropIfEmpty roomName) := by
  unfold dropIfEmpty
  split
  · exact turn.steady_refl
  · rename_i room held
    split
    · rename_i empty
      refine steady_eraseRoom fun found foundHeld => ?_
      have equal : found = room :=
        Option.some.inj (foundHeld.symm.trans held)
      exact equal ▸ empty
    · exact turn.steady_refl

theorem steady_retireRoom {turn : HubTurn} {roomName : String}
    (empty : ∀ room, turn.core.rooms.lookup roomName = some room →
      room.members.isEmpty = true) :
    Steady turn (turn.retireRoom roomName) :=
  (steady_eraseRoom empty).trans (steady_pushPersist _ _ _ _)

theorem steady_drainRemovals (turn : HubTurn) :
    Steady turn turn.drainRemovals := by
  unfold drainRemovals
  refine (turn.steady_mapCore (fun core =>
    { core with pendingRemovals := ∅ }) rfl rfl rfl rfl).trans ?_
  generalize turn.core.pendingRemovals.toList = names
  generalize turn.mapCore (fun core => { core with pendingRemovals := ∅ }) =
    drained
  refine ⟨fun link => by rw [pushAll_core], by rw [pushAll_core],
    by rw [pushAll_core], fun name link => by rw [pushAll_core],
    fun name other banned => by rwa [pushAll_core] at banned, ?_⟩
  funext listener name
  rw [heard_pushAll, List.flatMap_eq_nil_iff.mpr, List.append_nil]
  intro send member
  obtain ⟨removed, -, rfl⟩ := List.mem_map.mp member
  rfl

theorem steady_found {turn : HubTurn} {roomName : String} {room : HubRoom}
    (absent : turn.core.rooms.lookup roomName = none)
    (empty : room.members = ∅) (noBans : room.bans = ∅) :
    Steady turn
      { turn with
        core :=
          { turn.core with
            rooms := turn.core.rooms.insert roomName room } } := by
  refine ⟨fun _ => rfl, rfl, rfl, fun name link => ?_,
    fun name other banned => ?_, rfl⟩
  · simp only [HubCore.roll, FiniteMap.lookup_insert_ite]
    split
    · rename_i same
      subst same
      simp [absent, empty]
    · exact Iff.rfl
  · obtain ⟨found, foundHeld, inside⟩ := banned
    simp only [FiniteMap.lookup_insert_ite] at foundHeld
    split at foundHeld
    · cases foundHeld
      rw [noBans] at inside
      exact absurd inside (FiniteSet.not_mem_empty other)
    · exact ⟨found, foundHeld, inside⟩

theorem dropIfEmpty_sessions (turn : HubTurn) (roomName : String) :
    (turn.dropIfEmpty roomName).core.sessions = turn.core.sessions := by
  unfold dropIfEmpty
  split
  · rfl
  · split
    · rfl
    · rfl

/-- Turning out a link that a ban of its identity closes. -/
theorem traced_dismissLinks {start : HubTurn} {links : List LinkId}
    (relaxes : ∀ banned, permits (.relax banned))
    (permitted : ∀ link ∈ links, permits (.close link))
    (turn : HubTurn) (traced : Traced permits start turn) :
    Traced permits start (links.foldl dismissLink turn) := by
  induction links generalizing turn with
  | nil => exact traced
  | cons link rest ih =>
      refine ih
        (fun later member => permitted later (List.mem_cons_of_mem link member))
        _ ?_
      refine traced_close relaxes (permitted link List.mem_cons_self) ?_
      refine (traced.steady relaxes
        (steady_push (turn.plain_hubError link "banned" none))
        (sameSeats_of_eq rfl)).steady relaxes
        (steady_push (plain_close turn.core.hubHash link))
        (sameSeats_of_eq rfl)

/-- A ban is recorded, and then its subject is turned out of the room. -/
theorem traced_ban {start before : HubTurn} {roomName reason : String}
    {target : IdentityHash} {origin : Option LinkId}
    (relaxes : ∀ banned, permits (.relax banned))
    (permitted : permits (.expel roomName target true)) (traced : Traced permits start before) :
    Traced permits start
      (((before.modifyRoom roomName fun room =>
        { room with
          bans := room.bans.insert target }).ejectIdentityFromRoom roomName
          target reason).persistRoom roomName origin) := by
  have ejected := traced_expel
    (before.modifyRoom roomName fun room =>
      { room with bans := room.bans.insert target })
    relaxes permitted traced ?_ ?_
    (departed_ejectIdentityFromRoom _ roomName target reason)
    (sessions_ejectIdentityFromRoom _ roomName target reason)
  · refine ejected.steady relaxes (steady_persistRoom _ _ _)
      (sameSeats_of_eq (persistRoom_sessions _ _ _))
  · refine ⟨rfl, rfl, rfl, fun room link => ?_, rfl⟩
    simp only [HubCore.roll, modifyRoom, mapCore_core, FiniteMap.lookup_adjust]
    split
    · rename_i same
      subst same
      cases before.core.rooms.lookup room with
      | none => simp
      | some found => simp
    · exact Iff.rfl
  · rintro room other ⟨found, foundHeld, inside⟩
    simp only [modifyRoom, mapCore_core, FiniteMap.lookup_adjust] at foundHeld
    split at foundHeld
    · rename_i same
      obtain ⟨earlier, earlierHeld, rfl⟩ := Option.map_eq_some_iff.mp foundHeld
      rcases (FiniteSet.mem_insert _ _ _).mp inside with equal | known
      · exact Or.inr ⟨rfl, same, equal⟩
      · exact Or.inl ⟨earlier, same ▸ earlierHeld, known⟩
    · exact Or.inl ⟨found, foundHeld, inside⟩

/-- A kline is recorded, and then the sessions of its subject are closed. -/
theorem traced_kline {start before announced : HubTurn} {target : IdentityHash}
    {origin : Option LinkId} (relaxes : ∀ banned, permits (.relax banned))
    (permitted : ∀ link, before.core.sessionIdentity link = some target → permits (.close link))
    (answers : Announces (before.recordKline target origin) announced)
    (traced : Traced permits start before) :
    Traced permits start (announced.dismissIdentity target) := by
  have steady := (before.steady_recordKline target origin).trans (steady_of_announces answers)
  refine traced_dismissLinks relaxes (fun link member => ?_) _
    (traced.steady relaxes steady (sameSeats_of_eq ?_))
  · refine permitted link ?_
    rw [← steady.identities]
    exact (announced.core.mem_linksForIdentity target link).mp member
  · rw [answers.core_eq]
    rfl

/-- The room's tokens and its removal are noted around the drop of a room. -/
theorem steady_unregister {before announced : HubTurn} {roomName : String}
    {change : HubRoom → HubRoom} {roomTokens : FiniteMap String Nat} {tokensDrawn : Nat}
    (changed : Steady before (before.modifyRoom roomName change)) (answers : Announces
      ((before.modifyRoom roomName change).mapCore fun core =>
        { core with
          roomTokens := roomTokens
          tokensDrawn := tokensDrawn }) announced)
    (pending : FiniteSet String) :
    Steady before
      ((announced.dropIfEmpty roomName).mapCore fun core =>
        { core with pendingRemovals := pending }) :=
  ((changed.trans
    (steady_mapCore _ (fun core =>
      { core with
        roomTokens := roomTokens
        tokensDrawn := tokensDrawn }) rfl rfl rfl rfl)).trans
    (steady_of_announces answers)).trans
    ((announced.steady_dropIfEmpty roomName).trans
      (steady_mapCore _ (fun core =>
        { core with pendingRemovals := pending }) rfl rfl rfl rfl))

end HubTurn

/-- Every move is a path. -/
theorem Traced.move {limits : Limits} {start before after : HubTurn}
    (relaxes : ∀ banned, limits.permits (.relax banned))
    (traced : Traced limits.permits start before) (move : Move limits before after) :
    Traced limits.permits start after := by
  cases move with
  | reply plain =>
      exact traced.steady relaxes (HubTurn.steady_push plain) (sameSeats_of_eq rfl)
  | relay found scope content clear =>
      refine traced.steady relaxes (before.steady_fanOut _ content) (sameSeats_of_eq ?_)
      rw [HubTurn.fanOut, HubTurn.pushAll_core]
  | tend same =>
      refine traced.steady relaxes ⟨fun link => ?_, rfl, rfl,
        fun _ _ => Iff.rfl, fun _ _ => id, rfl⟩ same
      rcases rel_cases (same link) with ⟨first, second⟩ | ⟨earlier, later, first, second, seat⟩
      · simp [HubCore.sessionIdentity, first, second]
      · simp [HubCore.sessionIdentity, first, second, seat.1]
  | note =>
      exact traced.steady relaxes ⟨fun _ => rfl, rfl, rfl,
        fun _ _ => Iff.rfl, fun _ _ => id, rfl⟩ (sameSeats_of_eq rfl)
  | retouch same =>
      refine traced.steady relaxes (before.steady_rooms fun roomName => ?_)
        (sameSeats_of_eq rfl)
      rcases rel_cases (same roomName) with ⟨first, second⟩ |
        ⟨earlier, later, first, second, touched⟩
      · rw [first, second]
        exact .none
      · rw [first, second]
        refine .some ⟨by rw [touched.1], fun identity inside => ?_⟩
        rw [touched.1] at inside
        exact inside
  | welcome permitted => exact traced_welcome relaxes permitted traced
  | found named absent empty noBans ephemeral clean storable =>
      exact traced.steady relaxes (HubTurn.steady_found absent empty noBans)
        (sameSeats_of_eq rfl)
  | enter permitted live identified welcomed held clear =>
      exact traced_enter relaxes permitted traced live identified welcomed held clear
  | leave permitted identified => exact traced_leave relaxes permitted traced identified
  | expel permitted =>
      exact traced_expel before relaxes permitted traced
        ⟨rfl, rfl, rfl, fun _ _ => Iff.rfl, rfl⟩ (fun _ _ => Or.inl)
        (before.departed_ejectIdentityFromRoom _ _ _)
        (before.sessions_ejectIdentityFromRoom _ _ _)
  | ban permitted => exact HubTurn.traced_ban relaxes permitted traced
  | close permitted => exact traced_close relaxes permitted traced
  | kline permitted answers => exact HubTurn.traced_kline relaxes permitted answers traced
  | unkline =>
      refine traced.steady relaxes ((before.steady_mapCore _ rfl rfl rfl
        rfl).trans (HubTurn.steady_persistKlines _ _)) (sameSeats_of_eq rfl)
  | restateKlines =>
      exact traced.steady relaxes (before.steady_persistKlines _) (sameSeats_of_eq rfl)
  | amend amends answers =>
      rename_i announced roomName change origin
      have changed : Steady before (before.modifyRoom roomName change) :=
        before.steady_modifyRoom roomName
          (fun room held => (amends room held).members)
          (fun room held => (amends room held).bans)
      refine traced.steady relaxes ((changed.trans
        (HubTurn.steady_of_announces answers)).trans
        (announced.steady_persistRoom _ _)) (sameSeats_of_eq ?_)
      rw [HubTurn.persistRoom_sessions, answers.core_eq]
      rfl
  | register change pending present registers others settled answers =>
      rename_i announced roomName origin
      have changed : Steady before (before.modifyRoom roomName change) :=
        before.steady_modifyRoom roomName
          (fun room held => (registers room held).members)
          (fun room held identity inside =>
            (registers room held).bans ▸ inside)
      refine traced.steady relaxes (((changed.trans
        (HubTurn.steady_mapCore _ (fun core =>
          { core with pendingRemovals := pending }) rfl rfl rfl rfl)).trans
        (HubTurn.steady_of_announces answers)).trans
        (announced.steady_persistRoom _ _)) (sameSeats_of_eq ?_)
      rw [HubTurn.persistRoom_sessions, answers.core_eq]
      rfl
  | unregister change pending unregisters others settled answers drops =>
      rename_i announced dropped roomName origin scope roomTokens tokensDrawn
      have changed : Steady before (before.modifyRoom roomName change) :=
        before.steady_modifyRoom roomName
          (fun room held => (unregisters room held).members)
          (fun room held identity inside =>
            (unregisters room held).bans ▸ inside)
      subst drops
      refine traced.steady relaxes
        ((HubTurn.steady_unregister changed answers pending).trans
          (HubTurn.steady_pushPersist _ _ _ _)) (sameSeats_of_eq ?_)
      have sameSessions : (announced.dropIfEmpty roomName).core.sessions =
          before.core.sessions := by
        rw [HubTurn.dropIfEmpty_sessions, answers.core_eq]
        rfl
      exact sameSessions
  | restate =>
      exact traced.steady relaxes (before.steady_persistRoom _ _)
        (sameSeats_of_eq (before.persistRoom_sessions _ _))
  | retire empty =>
      exact traced.steady relaxes (HubTurn.steady_retireRoom empty) (sameSeats_of_eq rfl)
  | drain =>
      refine traced.steady relaxes before.steady_drainRemovals (sameSeats_of_eq ?_)
      rw [HubTurn.drainRemovals, HubTurn.pushAll_core]
      rfl
  | lesserWrite lesser =>
      exact traced.steady relaxes (HubTurn.steady_pushPersist _ _ _ _) (sameSeats_of_eq rfl)

theorem Traced.moves {limits : Limits} {start before after : HubTurn}
    (relaxes : ∀ banned, limits.permits (.relax banned))
    (traced : Traced limits.permits start before) (moves : Moves limits before after) :
    Traced limits.permits start after :=
  moves.induct (fun _ _ move traced => traced.move relaxes move) traced

/-- Every event but that a link is there or proved an identity is a path of
operations that the event may carry out. -/
theorem traced_handle [UnicodeTables] [HubCrypto] {core : HubCore} {input : HubInput}
    (seated : ∀ linkId, input.event ≠ .linkEstablished linkId) (bound : ∀ linkId identity,
      input.event ≠ .linkIdentified linkId identity) :
    Traced (core.limitsOf input).permits (core.turn input.ambient) (core.handle input) :=
  (traced_start _).moves (fun _ => trivial)
    (HubTurn.moves_handle seated bound)

end Ratspeak
