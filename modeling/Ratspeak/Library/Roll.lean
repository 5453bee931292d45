import Mathlib.Logic.Function.Basic
import Mathlib.Tactic.Tauto

/-!
# Rolls

A roll records which links are live, which identity each of them proved,
which rooms each link has joined and which links each room counts as its
members.  The two sides of a membership are kept apart, as a program keeps
them, so that it is a theorem when they agree.

A room holds links; present in it are the identities of its links.  The
operations below are those of a service that links enter and leave.  For each
of them there is also what a member of a room hears of it.
-/

namespace Ratspeak.Library

universe u v w

@[ext]
structure Roll (Link : Type u) (Identity : Type v) (Room : Type w) where
  live : Link → Prop
  identity : Link → Option Identity
  welcomed : Link → Prop
  joined : Link → Room → Prop
  members : Room → Link → Prop
  banned : Room → Identity → Prop
  /-- One link for an identity, to which direct messages go. -/
  index : Identity → Option Link

inductive RollOp (Link : Type u) (Identity : Type v) (Room : Type w) where
  | establish (link : Link)
  | bind (link : Link) (identity : Identity)
  | refuse (link : Link)
  | welcome (link : Link)
  | enter (link : Link) (room : Room)
  | leave (link : Link) (room : Room)
  | expel (room : Room) (identity : Identity) (ban : Bool)
  | close (link : Link)
  | relax (banned : Room → Identity → Prop)

/-- What a member hears about the roster of its room. -/
inductive RosterNote (Identity : Type v) where
  | joined (identity : Identity)
  | parted (identity : Identity)
  deriving DecidableEq

namespace Roll

variable {Link : Type u} {Identity : Type v} {Room : Type w}

/-- The identities of the links in a room. -/
def present (roll : Roll Link Identity Room) (room : Room) (identity : Identity) : Prop :=
  ∃ link, roll.members room link ∧ roll.identity link = some identity

variable [DecidableEq Link] [DecidableEq Identity]

/-- The roll after an operation. -/
def apply (roll : Roll Link Identity Room) :
    RollOp Link Identity Room → Roll Link Identity Room
  | .establish link => { roll with live := fun other => other = link ∨ roll.live other }
  | .bind link identity =>
      { roll with
        live := fun other => other = link ∨ roll.live other
        identity := Function.update roll.identity link (some identity)
        index := Function.update roll.index identity (some link) }
  | .refuse link =>
      { roll with
        live := fun other => other ≠ link ∧ roll.live other
        identity := Function.update roll.identity link none
        welcomed := fun other => other ≠ link ∧ roll.welcomed other
        joined := fun other room => other ≠ link ∧ roll.joined other room }
  | .welcome link =>
      { roll with
        welcomed := fun other => other = link ∨ roll.welcomed other }
  | .enter link room =>
      { roll with
        joined := fun other place =>
          (other = link ∧ place = room) ∨ roll.joined other place
        members := fun place other =>
          (place = room ∧ other = link) ∨ roll.members place other }
  | .leave link room =>
      { roll with
        joined := fun other place =>
          roll.joined other place ∧ ¬ (other = link ∧ place = room)
        members := fun place other =>
          roll.members place other ∧ ¬ (place = room ∧ other = link) }
  | .expel room identity ban =>
      { roll with
        joined := fun other place =>
          roll.joined other place ∧
            ¬ (place = room ∧ roll.members room other ∧ roll.identity other = some identity)
        members := fun place other =>
          roll.members place other ∧ ¬ (place = room ∧ roll.identity other = some identity)
        banned := fun place other =>
          roll.banned place other ∨ (ban = true ∧ place = room ∧ other = identity) }
  | .close link =>
      { roll with
        live := fun other => other ≠ link ∧ roll.live other
        identity := Function.update roll.identity link none
        welcomed := fun other => other ≠ link ∧ roll.welcomed other
        joined := fun other room => other ≠ link ∧ roll.joined other room
        members := fun room other =>
          roll.members room other ∧
            ¬ (other = link ∧ roll.joined link room ∧ (roll.identity link).isSome)
        index := fun identity =>
          if roll.identity link = some identity ∧ roll.index identity = some link then none
          else roll.index identity }
  | .relax banned => { roll with banned := banned }

/-- What an operation requires of the roll it is carried out on. -/
def Allows (roll : Roll Link Identity Room) :
    RollOp Link Identity Room → Prop
  | .enter link room =>
      roll.live link ∧ roll.welcomed link ∧
        ∃ identity, roll.identity link = some identity ∧ ¬ roll.banned room identity
  | .welcome link => roll.live link
  | .relax banned => ∀ room identity, banned room identity →
      roll.banned room identity
  | _ => True

open Classical in
/-- The note about the departure of one identity from a room. -/
noncomputable def departureNotes (after : Roll Link Identity Room)
    (room : Room) (identity : Identity) : List (RosterNote Identity) :=
  if after.present room identity then [] else [.parted identity]

/-- What a listener that stays in a room hears of an operation.  The one that
enters hears the whole roster. -/
def Heard (roll : Roll Link Identity Room)
    (op : RollOp Link Identity Room) (listener : Link) (room : Room)
    (notes : List (RosterNote Identity)) : Prop :=
  match op with
  | .enter link place =>
      if listener = link then
        (place = room → ∃ roster : List Identity,
          notes = roster.map RosterNote.joined ∧
            ∀ identity, identity ∈ roster ↔ (roll.apply op).present room identity) ∧
        (place ≠ room → notes = [])
      else
        roll.members room listener →
          (place = room → ∀ identity, roll.identity link = some identity →
            (roll.present room identity → notes = []) ∧
              (¬ roll.present room identity → notes = [.joined identity])) ∧
          (place ≠ room → notes = [])
  | .leave link place =>
      listener ≠ link → roll.members room listener →
        (place = room → ∀ identity, roll.identity link = some identity →
          notes = departureNotes (roll.apply op) room identity) ∧
        (place ≠ room → notes = [])
  | .expel place identity _ =>
      (roll.apply op).members room listener →
        (place = room →
          (roll.present room identity → notes = [.parted identity]) ∧
          (¬ roll.present room identity → notes = [])) ∧
        (place ≠ room → notes = [])
  | .close link =>
      listener ≠ link → roll.members room listener →
        (roll.joined link room → ∀ identity,
          roll.identity link = some identity →
            notes = departureNotes (roll.apply op) room identity) ∧
        (¬ roll.joined link room → notes = [])
  | _ => notes = []

/-- What every listener has heard about every room. -/
abbrev Log (Link : Type u) (Identity : Type v) (Room : Type w) :=
  Link → Room → List (RosterNote Identity)

/-- A sequence of permitted operations, and what was heard up to its end,
where members are told of operations at all. -/
inductive Path (permits : RollOp Link Identity Room → Prop) (told : Prop)
    (start : Roll Link Identity Room) (silence : Log Link Identity Room) :
    Log Link Identity Room → Roll Link Identity Room → Prop where
  | start : Path permits told start silence silence start
  | step {log later : Log Link Identity Room}
      {roll after : Roll Link Identity Room} (op : RollOp Link Identity Room)
      (before : Path permits told start silence log roll)
      (permitted : permits op) (allowed : roll.Allows op)
      (result : after = roll.apply op) (notes : Log Link Identity Room)
      (appended : ∀ listener room,
        later listener room = log listener room ++ notes listener room)
      (heard : told → ∀ listener room, roll.Heard op listener room (notes listener room)) :
      Path permits told start silence later after

/-- What every permitted operation keeps holds at the end of a path. -/
theorem Path.induct {permits : RollOp Link Identity Room → Prop}
    {told : Prop} {invariant : Roll Link Identity Room → Prop}
    (kept : ∀ roll op, invariant roll → permits op → roll.Allows op → invariant (roll.apply op))
    {start finish : Roll Link Identity Room} {silence log : Log Link Identity Room}
    (path : Path permits told start silence log finish)
    (initially : invariant start) : invariant finish := by
  induction path with
  | start => exact initially
  | step op before permitted allowed result notes appended heard
      ih =>
      rw [result]
      exact kept _ op ih permitted allowed

/-! ## Coherence -/

/-- Both sides of every membership agree, and whoever is a member is live,
identified and welcomed. -/
structure Coherent (roll : Roll Link Identity Room) : Prop where
  mirrored : ∀ link room, roll.members room link ↔ roll.joined link room
  memberLive : ∀ link room, roll.members room link → roll.live link
  memberWelcomed : ∀ link room, roll.members room link → roll.welcomed link
  memberIdentified : ∀ link room, roll.members room link →
    ∃ identity, roll.identity link = some identity

/-- Turning a link away is the one operation that does not look at the rooms
of the link. -/
theorem coherent_apply {roll : Roll Link Identity Room}
    (coherent : roll.Coherent) {op : RollOp Link Identity Room} (allowed : roll.Allows op)
    (roomless : ∀ link, op = .refuse link → ∀ room, ¬ roll.joined link room) :
    (roll.apply op).Coherent := by
  obtain ⟨mirrored, memberLive, memberWelcomed, memberIdentified⟩ := coherent
  cases op with
  | establish link =>
      exact ⟨mirrored,
        fun other room member => Or.inr (memberLive other room member),
        memberWelcomed, memberIdentified⟩
  | bind link identity =>
      refine ⟨mirrored,
        fun other room member => Or.inr (memberLive other room member),
        memberWelcomed, fun other room member => ?_⟩
      by_cases same : other = link
      · exact ⟨identity, by simp [apply, same]⟩
      · obtain ⟨known, proved⟩ := memberIdentified other room member
        exact ⟨known, by simp [apply, same, proved]⟩
  | refuse link =>
      have outside : ∀ other room, roll.members room other →
          other ≠ link := by
        rintro other room member rfl
        exact roomless other rfl room ((mirrored other room).mp member)
      refine ⟨fun other room => ?_, fun other room member => ?_,
        fun other room member => ?_, fun other room member => ?_⟩
      · constructor
        · intro member
          exact ⟨outside other room member, (mirrored other room).mp member⟩
        · intro joined
          exact (mirrored other room).mpr joined.2
      · exact ⟨outside other room member, memberLive other room member⟩
      · exact ⟨outside other room member, memberWelcomed other room member⟩
      · obtain ⟨known, proved⟩ := memberIdentified other room member
        exact ⟨known, by simp [apply, outside other room member, proved]⟩
  | welcome link =>
      exact ⟨mirrored, memberLive,
        fun other room member => Or.inr (memberWelcomed other room member),
        memberIdentified⟩
  | enter link room =>
      obtain ⟨live, welcomed, identity, proved, -⟩ := allowed
      refine ⟨fun other place => ?_, fun other place member => ?_,
        fun other place member => ?_, fun other place member => ?_⟩
      · simp only [apply, mirrored]
        tauto
      · rcases member with ⟨-, rfl⟩ | member
        · exact live
        · exact memberLive other place member
      · rcases member with ⟨-, rfl⟩ | member
        · exact welcomed
        · exact memberWelcomed other place member
      · rcases member with ⟨-, rfl⟩ | member
        · exact ⟨identity, proved⟩
        · exact memberIdentified other place member
  | leave link room =>
      refine ⟨fun other place => ?_,
        fun other place member => memberLive other place member.1,
        fun other place member => memberWelcomed other place member.1,
        fun other place member => memberIdentified other place member.1⟩
      simp only [apply, mirrored]
      tauto
  | expel room identity ban =>
      refine ⟨fun other place => ?_,
        fun other place member => memberLive other place member.1,
        fun other place member => memberWelcomed other place member.1,
        fun other place member => memberIdentified other place member.1⟩
      simp only [apply]
      constructor
      · rintro ⟨member, stays⟩
        exact ⟨(mirrored other place).mp member, fun gone => stays ⟨gone.1, gone.2.2⟩⟩
      · rintro ⟨joined, stays⟩
        have member := (mirrored other place).mpr joined
        refine ⟨member, fun gone => stays ⟨gone.1, ?_, gone.2⟩⟩
        rw [← gone.1]
        exact member
  | close link =>
      have outside : ∀ other room,
          (roll.apply (.close link)).members room other →
            other ≠ link := by
        rintro other room ⟨member, stays⟩ rfl
        obtain ⟨known, proved⟩ := memberIdentified other room member
        exact stays ⟨rfl, (mirrored other room).mp member,
          by simp [proved]⟩
      refine ⟨fun other room => ?_, fun other room member => ?_,
        fun other room member => ?_, fun other room member => ?_⟩
      · constructor
        · intro member
          exact ⟨outside other room member, (mirrored other room).mp member.1⟩
        · intro joined
          exact ⟨(mirrored other room).mpr joined.2, fun gone => joined.1 gone.1⟩
      · exact ⟨outside other room member, memberLive other room member.1⟩
      · exact ⟨outside other room member, memberWelcomed other room member.1⟩
      · obtain ⟨known, proved⟩ := memberIdentified other room member.1
        exact ⟨known, by simp [apply, outside other room member, proved]⟩
  | relax banned => exact ⟨mirrored, memberLive, memberWelcomed, memberIdentified⟩

/-! ## Bans -/

/-- No link in a room belongs to an identity that is banned from it. -/
def Lawful (roll : Roll Link Identity Room) : Prop :=
  ∀ room link identity, roll.members room link →
    roll.identity link = some identity → ¬ roll.banned room identity

/-- Binding a link that is in a room to another identity is the one operation
that does not look at the bans of the room. -/
theorem lawful_apply {roll : Roll Link Identity Room}
    (lawful : roll.Lawful) {op : RollOp Link Identity Room} (allowed : roll.Allows op)
    (welcomeThere : ∀ link identity, op = .bind link identity →
      ∀ room, roll.members room link → ¬ roll.banned room identity) :
    (roll.apply op).Lawful := by
  intro room other known member proved
  cases op with
  | establish link => exact lawful room other known member proved
  | bind link identity =>
      by_cases same : other = link
      · subst same
        have equal : identity = known := by
          simpa [apply] using proved
        exact equal ▸ welcomeThere other identity rfl room member
      · exact lawful room other known member (by
          simpa [apply, same] using proved)
  | refuse link =>
      by_cases same : other = link
      · simp [apply, same] at proved
      · exact lawful room other known member (by
          simpa [apply, same] using proved)
  | welcome link => exact lawful room other known member proved
  | enter link place =>
      obtain ⟨-, -, identity, ownIdentity, clear⟩ := allowed
      rcases member with ⟨rfl, rfl⟩ | member
      · have equal : identity = known :=
          Option.some.inj (ownIdentity.symm.trans proved)
        exact equal ▸ clear
      · exact lawful room other known member proved
  | leave link place => exact lawful room other known member.1 proved
  | expel place identity ban =>
      rintro (banned | ⟨-, rfl, rfl⟩)
      · exact lawful room other known member.1 proved banned
      · exact member.2 ⟨rfl, proved⟩
  | close link =>
      by_cases same : other = link
      · simp [apply, same] at proved
      · exact lawful room other known member.1 (by
          simpa [apply, same] using proved)
  | relax banned =>
      intro stillBanned
      exact lawful room other known member proved (allowed room known stillBanned)

/-! ## Presence -/

/-- Only binding a link gives it an identity. -/
theorem identity_of_not_bind {roll : Roll Link Identity Room}
    {op : RollOp Link Identity Room} (notBind : ∀ link identity, op ≠ .bind link identity)
    {link : Link} {identity : Identity}
    (proved : (roll.apply op).identity link = some identity) :
    roll.identity link = some identity := by
  cases op with
  | bind other known => exact absurd rfl (notBind other known)
  | refuse closed =>
      by_cases same : link = closed
      · simp [apply, same] at proved
      · simpa [apply, same] using proved
  | close closed =>
      by_cases same : link = closed
      · simp [apply, same] at proved
      · simpa [apply, same] using proved
  | _ => exact proved

/-- The links that have an identity at the end of a path without binding had
it at the start. -/
theorem Path.identity {permits : RollOp Link Identity Room → Prop}
    {told : Prop} (noBind : ∀ link identity, ¬ permits (.bind link identity))
    {start finish : Roll Link Identity Room} {silence log : Log Link Identity Room}
    (path : Path permits told start silence log finish)
    {link : Link} {identity : Identity} (proved : finish.identity link = some identity) :
    start.identity link = some identity := by
  have kept : ∀ (roll : Roll Link Identity Room) op,
      (roll.identity link = some identity → start.identity link = some identity) →
      permits op → roll.Allows op →
      ((roll.apply op).identity link = some identity →
        start.identity link = some identity) := by
    intro roll op before permitted allowed after
    refine before (identity_of_not_bind ?_ after)
    rintro other known rfl
    exact noBind other known permitted
  exact path.induct kept id proved

theorem members_of_apply {roll : Roll Link Identity Room}
    {op : RollOp Link Identity Room} {link : Link} {room : Room}
    (member : (roll.apply op).members room link) :
    roll.members room link ∨ op = .enter link room := by
  cases op with
  | enter entering place =>
      rcases member with ⟨rfl, rfl⟩ | member
      · exact Or.inr rfl
      · exact Or.inl member
  | leave _ _ => exact Or.inl member.1
  | expel _ _ _ => exact Or.inl member.1
  | close _ => exact Or.inl member.1
  | _ => exact Or.inl member

/-- Who is present after an operation was present before, or a link of theirs
has just entered, unless a link was bound. -/
theorem present_of_apply {roll : Roll Link Identity Room} {op : RollOp Link Identity Room}
    (notBind : ∀ link identity, op ≠ .bind link identity)
    {room : Room} {identity : Identity} (present : (roll.apply op).present room identity) :
    roll.present room identity ∨
      ∃ link, op = .enter link room ∧ roll.identity link = some identity := by
  obtain ⟨link, member, proved⟩ := present
  have earlier : roll.identity link = some identity :=
    identity_of_not_bind notBind proved
  rcases members_of_apply member with inside | entered
  · exact Or.inl ⟨link, inside, earlier⟩
  · exact Or.inr ⟨link, entered, earlier⟩

/-- Whoever is banned after an operation was banned before, or was just
expelled for good. -/
theorem banned_of_apply {roll : Roll Link Identity Room}
    {op : RollOp Link Identity Room} (allowed : roll.Allows op)
    {room : Room} {identity : Identity} (banned : (roll.apply op).banned room identity) :
    roll.banned room identity ∨ op = .expel room identity true := by
  cases op with
  | expel place target ban =>
      rcases banned with before | ⟨rfl, rfl, rfl⟩
      · exact Or.inl before
      · exact Or.inr rfl
  | relax fewer => exact Or.inl (allowed room identity banned)
  | establish _ => exact Or.inl banned
  | bind _ _ => exact Or.inl banned
  | refuse _ => exact Or.inl banned
  | welcome _ => exact Or.inl banned
  | enter _ _ => exact Or.inl banned
  | leave _ _ => exact Or.inl banned
  | close _ => exact Or.inl banned

theorem joined_of_apply {roll : Roll Link Identity Room}
    {op : RollOp Link Identity Room} {link : Link} {room : Room}
    (joined : (roll.apply op).joined link room) :
    roll.joined link room ∨ op = .enter link room := by
  cases op with
  | enter entering place =>
      rcases joined with ⟨rfl, rfl⟩ | joined
      · exact Or.inr rfl
      · exact Or.inl joined
  | refuse _ => exact Or.inl joined.2
  | close _ => exact Or.inl joined.2
  | leave _ _ => exact Or.inl joined.1
  | expel _ _ _ => exact Or.inl joined.1
  | _ => exact Or.inl joined

/-- Every room that a link has joined counts it as a member. -/
def Seated (roll : Roll Link Identity Room) : Prop :=
  ∀ link room, roll.joined link room → roll.members room link

/-- Turning a link away drops its side of a membership only. -/
theorem seated_apply {roll : Roll Link Identity Room}
    (seated : roll.Seated) (op : RollOp Link Identity Room) :
    (roll.apply op).Seated := by
  intro other place joined
  cases op with
  | establish _ => exact seated other place joined
  | bind _ _ => exact seated other place joined
  | refuse _ => exact seated other place joined.2
  | welcome _ => exact seated other place joined
  | enter link room =>
      rcases joined with ⟨rfl, rfl⟩ | joined
      · exact Or.inl ⟨rfl, rfl⟩
      · exact Or.inr (seated other place joined)
  | leave link room =>
      exact ⟨seated other place joined.1, fun left => joined.2 ⟨left.2, left.1⟩⟩
  | expel room identity ban =>
      refine ⟨seated other place joined.1, fun turned => joined.2 ?_⟩
      obtain ⟨rfl, proved⟩ := turned
      exact ⟨rfl, seated other place joined.1, proved⟩
  | close link => exact ⟨seated other place joined.2, fun closed => joined.1 closed.1⟩
  | relax _ => exact seated other place joined

/-! ## The index -/

/-- The index names live links of the identity, and has an entry for every
identity with a live link that is not about to be closed. -/
structure Indexed (doomed : Link → Prop)
    (roll : Roll Link Identity Room) : Prop where
  sound : ∀ identity link, roll.index identity = some link →
    roll.live link ∧ roll.identity link = some identity
  complete : ∀ link identity, roll.identity link = some identity →
    ¬ doomed link → ∃ other, roll.index identity = some other

/-- The operations that are harmless to an index: one that takes a link from
an identity must not leave the index of the identity on that link, unless all
its links are about to be closed. -/
def KeepsIndex (doomed : Link → Prop) (roll : Roll Link Identity Room) :
    RollOp Link Identity Room → Prop
  | .bind link identity => ∀ other, other ≠ identity →
      roll.identity link = some other → roll.index other ≠ some link
  | .refuse link => ∀ identity, roll.identity link = some identity →
      roll.index identity ≠ some link
  | .close link => ∀ identity, roll.index identity = some link →
      ∀ other, other ≠ link → roll.identity other = some identity → doomed other
  | _ => True

theorem indexed_apply {doomed : Link → Prop}
    {roll : Roll Link Identity Room} (indexed : roll.Indexed doomed)
    {op : RollOp Link Identity Room} (keeps : KeepsIndex doomed roll op) :
    (roll.apply op).Indexed doomed := by
  obtain ⟨sound, complete⟩ := indexed
  cases op with
  | establish link =>
      exact ⟨fun identity other entry =>
        ⟨Or.inr (sound identity other entry).1, (sound identity other entry).2⟩, complete⟩
  | bind link identity =>
      refine ⟨fun known other entry => ?_, fun other known proved spared => ?_⟩
      · by_cases same : known = identity
        · subst same
          have equal : link = other := by
            simpa [apply] using entry
          subst equal
          exact ⟨Or.inl rfl, by simp [apply]⟩
        · have old : roll.index known = some other := by
            simpa [apply, same] using entry
          have elsewhere : other ≠ link := by
            rintro rfl
            exact keeps known same (sound known other old).2 old
          exact ⟨Or.inr (sound known other old).1, by
            simpa [apply, elsewhere] using (sound known other old).2⟩
      · by_cases same : known = identity
        · exact ⟨link, by simp [apply, same]⟩
        · have elsewhere : other ≠ link := by
            rintro rfl
            simp only [apply, Function.update_self, Option.some.injEq] at proved
            exact same proved.symm
          obtain ⟨entry, found⟩ := complete other known (by
            simpa [apply, elsewhere] using proved) spared
          exact ⟨entry, by simpa [apply, same] using found⟩
  | refuse link =>
      refine ⟨fun known other entry => ?_, fun other known proved spared => ?_⟩
      · have elsewhere : other ≠ link := by
          rintro rfl
          exact keeps known (sound known other entry).2 entry
        exact ⟨⟨elsewhere, (sound known other entry).1⟩, by
          simpa [apply, elsewhere] using (sound known other entry).2⟩
      · have elsewhere : other ≠ link := by
          rintro rfl
          simp [apply] at proved
        exact complete other known (by
          simpa [apply, elsewhere] using proved) spared
  | close link =>
      refine ⟨fun known other entry => ?_, fun other known proved spared => ?_⟩
      · by_cases erased : roll.identity link = some known ∧
            roll.index known = some link
        · simp [apply, erased] at entry
        · have old : roll.index known = some other := by
            simpa [apply, erased] using entry
          have elsewhere : other ≠ link := by
            rintro rfl
            exact erased ⟨(sound known other old).2, old⟩
          exact ⟨⟨elsewhere, (sound known other old).1⟩, by
            simpa [apply, elsewhere] using (sound known other old).2⟩
      · have elsewhere : other ≠ link := by
          rintro rfl
          simp [apply] at proved
        have old : roll.identity other = some known := by
          simpa [apply, elsewhere] using proved
        obtain ⟨entry, found⟩ := complete other known old spared
        have notLink : entry ≠ link := by
          rintro rfl
          exact spared (keeps known found other elsewhere old)
        refine ⟨entry, ?_⟩
        simp only [apply]
        rw [if_neg]
        · exact found
        · rintro ⟨-, onLink⟩
          exact notLink (Option.some.inj (found.symm.trans onLink))
  | welcome link => exact ⟨sound, complete⟩
  | enter link room => exact ⟨sound, complete⟩
  | leave link room => exact ⟨sound, complete⟩
  | expel room identity ban => exact ⟨sound, complete⟩
  | relax banned => exact ⟨sound, complete⟩

/-- Only binding a link puts it into the index. -/
theorem index_of_not_bind {roll : Roll Link Identity Room}
    {op : RollOp Link Identity Room} (notBind : ∀ link identity, op ≠ .bind link identity)
    {identity : Identity} {link : Link} (entry : (roll.apply op).index identity = some link) :
    roll.index identity = some link := by
  cases op with
  | bind other known => exact absurd rfl (notBind other known)
  | close closed =>
      simp only [apply] at entry
      split at entry
      · cases entry
      · exact entry
  | _ => exact entry

omit [DecidableEq Link] [DecidableEq Identity] in
/-- The index is whole when all links that were about to be closed are. -/
theorem Indexed.settled {doomed : Link → Prop}
    {roll : Roll Link Identity Room} (indexed : roll.Indexed doomed)
    (closed : ∀ link, doomed link → roll.identity link = none) :
    roll.Indexed fun _ => False := by
  refine ⟨indexed.sound, fun link identity proved _ => ?_⟩
  refine indexed.complete link identity proved fun closing => ?_
  rw [closed link closing] at proved
  cases proved

omit [DecidableEq Link] [DecidableEq Identity] in
theorem Indexed.weaken {roll : Roll Link Identity Room}
    (indexed : roll.Indexed fun _ => False) (doomed : Link → Prop) :
    roll.Indexed doomed :=
  ⟨indexed.sound, fun link identity proved _ =>
    indexed.complete link identity proved id⟩

end Roll

end Ratspeak.Library
