import Ratspeak.Client.SessionMoves

/-!
# What the moves of a room keep

The invariants of a room under its moves: when a key can wait, where a wait
comes from, and how a room comes to be joined.
-/

namespace Ratspeak

open Library

/-- The mark stands for an answer after which the room is joined. -/
def RoomMark.Grants : RoomMark → Prop
  | confirmed _ | affirmed | kept => True
  | _ => False

namespace RoomView

/-- A join of the room is on its way, or a key has yet to prove itself. -/
def Waits (view : RoomView) : Prop :=
  (∃ since, view.phase = some (.joining, since)) ∨ view.secret ≠ none

/-- A key waits only in a room of the log that is being joined or failed. -/
def Sound (view : RoomView) : Prop :=
  view.secret ≠ none → view.tracked = true ∧ ∃ phase since,
    view.phase = some (phase, since) ∧ (phase = .joining ∨ phase = .error)

/-- A key waits only in a room of the log that is being joined. -/
def Keyed (view : RoomView) : Prop :=
  view.secret ≠ none → view.tracked = true ∧ ∃ since, view.phase = some (.joining, since)

theorem Keyed.sound {view : RoomView} (keyed : view.Keyed) : view.Sound := by
  intro waiting
  obtain ⟨tracked, since, joining⟩ := keyed waiting
  exact ⟨tracked, .joining, since, joining, Or.inl rfl⟩

theorem phase_eq {phase other : ChannelRoomPhase} {since time : Nat}
    (equal : some (phase, since) = some (other, time)) : phase = other :=
  (Prod.ext_iff.mp (Option.some.inj equal)).1

/-- Where the room is neither being joined nor failed, no key waits. -/
theorem Sound.no_secret {view : RoomView} (sound : view.Sound)
    (settled : ∀ phase since, view.phase = some (phase, since) →
      phase ≠ .joining ∧ phase ≠ .error) : view.secret = none := by
  by_contra waiting
  obtain ⟨-, phase, since, known, waits⟩ := sound waiting
  rcases waits with joining | failed
  · exact (settled phase since known).1 joining
  · exact (settled phase since known).2 failed

theorem Sound.no_secret_of_phase {view : RoomView} (sound : view.Sound)
    {phase : ChannelRoomPhase} {since : Nat} (known : view.phase = some (phase, since))
    (settled : phase ≠ .joining ∧ phase ≠ .error) : view.secret = none := by
  refine sound.no_secret ?_
  intro other time isOther
  have isPhase : phase = other := phase_eq (known.symm.trans isOther)
  rw [← isPhase]
  exact settled

end RoomView

namespace RoomMove

theorem sound {before after : RoomView} {mark : RoomMark}
    (move : RoomMove before mark after) (sound : before.Sound) :
    after.Sound := by
  intro waiting
  cases move with
  | request secret now unknown => exact ⟨rfl, .joining, now, rfl, Or.inl rfl⟩
  | release unknown =>
      refine absurd (sound.no_secret ?_) waiting
      intro phase since known
      rw [unknown] at known
      cases known
  | abandon _ | unkey _ | part _ _ | partFail _ _ | refuse _ _ _ =>
      exact absurd rfl waiting
  | confirm now known pending =>
      by_cases tracked : before.tracked = true
      · rw [if_pos tracked] at waiting
        exact absurd rfl waiting
      · rw [if_neg tracked] at waiting
        exact absurd (sound waiting).1 tracked
  | affirm _ known | keep _ known | leave known =>
      exact absurd (sound.no_secret_of_phase known (by decide)) waiting
  | timeOut now _ _ | rejoinFail now _ =>
      exact ⟨(sound waiting).1, .error, now, rfl, Or.inr rfl⟩

/-- Only the end of a wait leaves a key behind. -/
theorem keyed {before after : RoomView} {mark : RoomMark}
    (move : RoomMove before mark after) (keyed : before.Keyed)
    (punctual : ∀ nowMs, mark ≠ .timedOut nowMs) : after.Keyed := by
  intro waiting
  have tracked : after.tracked = true :=
    (move.sound keyed.sound waiting).1
  refine ⟨tracked, ?_⟩
  cases move with
  | request secret now unknown => exact ⟨now, rfl⟩
  | timeOut now known late => exact absurd rfl (punctual now)
  | rejoinFail now settled =>
      obtain ⟨-, since, joining⟩ := keyed waiting
      exact absurd joining (settled since).1
  | release unknown =>
      exact (keyed waiting).2.imp fun since joining => by
        rw [unknown] at joining
        cases joining
  | abandon _ | unkey _ | part _ _ | partFail _ _ | refuse _ _ _ =>
      exact absurd rfl waiting
  | confirm now known pending =>
      by_cases isTracked : before.tracked = true
      · rw [if_pos isTracked] at waiting
        exact absurd rfl waiting
      · rw [if_neg isTracked] at waiting
        exact absurd (keyed waiting).1 isTracked
  | affirm _ known | keep _ known | leave known =>
      exact absurd (keyed.sound.no_secret_of_phase known (by decide)) waiting

/-- A wait begins with a JOIN; otherwise it went on, in silence. -/
theorem waits {before after : RoomView} {mark : RoomMark}
    (move : RoomMove before mark after) (sound : before.Sound)
    (waits : after.Waits) (name : String) :
    (∃ secret, mark = .requested secret ∧ after.secret = secret.pending) ∨
      joinsOf [mark] = [] ∧ mark.secrets name = [] ∧ before.Waits ∧
        (after.secret = none ∨ after.secret = before.secret) := by
  have settled : ∀ {phase : ChannelRoomPhase} {now : Nat}
      {secret : Option PendingJoinSecret} {tracked : Bool},
      RoomView.Waits ⟨some (phase, now), secret, tracked⟩ →
        phase ≠ .joining → secret ≠ none := by
    intro phase now secret tracked viewWaits notJoining
    rcases viewWaits with ⟨since, joining⟩ | waiting
    · exact absurd (RoomView.phase_eq joining) notJoining
    · exact waiting
  cases move with
  | request secret now unknown =>
      refine Or.inl ⟨secret, rfl, ?_⟩
      have noSecret : before.secret = none := by
        refine sound.no_secret ?_
        intro phase since known
        rw [unknown] at known
        cases known
      rw [noSecret, Option.or_none]
  | abandon failed =>
      rcases waits with ⟨since, joining⟩ | waiting
      · cases joining
      · exact absurd rfl waiting
  | release unknown =>
      refine Or.inr ⟨rfl, rfl, Or.inr ?_, Or.inr rfl⟩
      rcases waits with ⟨since, joining⟩ | waiting
      · cases joining
      · exact waiting
  | unkey settledRoom =>
      rcases waits with ⟨since, joining⟩ | waiting
      · exact absurd joining (settledRoom since)
      · exact absurd rfl waiting
  | part _ _ | refuse _ _ _ => exact absurd rfl (settled waits (by decide))
  | partFail now known =>
      refine Or.inr ⟨rfl, rfl, Or.inl ?_, Or.inl rfl⟩
      rcases waits with ⟨since, joining⟩ | waiting
      · have isJoining := RoomView.phase_eq joining
        subst isJoining
        exact ⟨_, known⟩
      · exact absurd rfl waiting
  | confirm now known pending =>
      have waiting := settled waits (by decide)
      by_cases tracked : before.tracked = true
      · rw [if_pos tracked] at waiting
        exact absurd rfl waiting
      · rw [if_neg tracked] at waiting
        exact absurd (sound waiting).1 tracked
  | affirm _ known | keep _ known =>
      exact absurd (sound.no_secret_of_phase known (by decide))
        (settled waits (by decide))
  | leave known =>
      rcases waits with ⟨since, joining⟩ | waiting
      · cases joining
      · exact absurd (sound.no_secret_of_phase known (by decide)) waiting
  | timeOut now known late => exact Or.inr ⟨rfl, rfl, Or.inl ⟨_, known⟩, Or.inr rfl⟩
  | rejoinFail now settledRoom =>
      exact Or.inr ⟨rfl, rfl, Or.inr (settled waits (by decide)),
        Or.inr rfl⟩

/-- An action comes only of the end of a wait. -/
theorem acts {before after : RoomView} {mark : RoomMark}
    (move : RoomMove before mark after) {name : String}
    (acts : mark.secrets name ≠ []) : before.Waits ∧ ¬after.Waits := by
  cases move with
  | confirm now known pending =>
      by_cases tracked : before.tracked = true
      · rw [if_pos tracked] at acts
        refine ⟨Or.inr ?_, ?_⟩
        · intro none
          rw [none] at acts
          exact acts rfl
        · rw [if_pos tracked]
          rintro (⟨since, joining⟩ | waiting)
          · cases joining
          · exact waiting rfl
      · rw [if_neg tracked] at acts
        exact absurd rfl acts
  | refuse now hubText known =>
      refine ⟨Or.inl ⟨_, known⟩, ?_⟩
      rintro (⟨since, joining⟩ | waiting)
      · cases joining
      · exact waiting rfl
  | request _ _ _ | abandon _ | release _ | unkey _ | part _ _
  | partFail _ _ | affirm _ _ | keep _ _ | leave _ | timeOut _ _ _
  | rejoinFail _ _ => exact absurd rfl acts

/-- A room is joined by an answer of the hub, or was before. -/
theorem joined {before after : RoomView} {mark : RoomMark}
    (move : RoomMove before mark after) {since : Nat}
    (joined : after.phase = some (.joined, since)) :
    mark.Grants ∨ joinsOf [mark] = [] ∧
      ∃ earlier, before.phase = some (.joined, earlier) := by
  cases move with
  | confirm _ _ _ | affirm _ _ | keep _ _ => exact Or.inl trivial
  | unkey settled => exact Or.inr ⟨rfl, since, joined⟩
  | partFail now known =>
      have isJoined := RoomView.phase_eq joined
      subst isJoined
      exact Or.inr ⟨rfl, _, known⟩
  | request _ _ _ | abandon _ | release _ | part _ _ | refuse _ _ _
  | leave _ | timeOut _ _ _ | rejoinFail _ _ => cases joined

/-- A room is being joined by a JOIN, or was before. -/
theorem joining {before after : RoomView} {mark : RoomMark}
    (move : RoomMove before mark after) {since : Nat}
    (joining : after.phase = some (.joining, since)) :
    (∃ secret, mark = .requested secret) ∨
      ∃ earlier, before.phase = some (.joining, earlier) := by
  cases move with
  | request secret now unknown => exact Or.inl ⟨secret, rfl⟩
  | unkey settled => exact Or.inr ⟨since, joining⟩
  | partFail now known =>
      have isJoining := RoomView.phase_eq joining
      subst isJoining
      exact Or.inr ⟨_, known⟩
  | abandon _ | release _ | part _ _ | confirm _ _ _ | affirm _ _
  | refuse _ _ _ | keep _ _ | leave _ | timeOut _ _ _ | rejoinFail _ _ => cases joining

end RoomMove

namespace RoomMoves

variable {before after : RoomView} {marks : List RoomMark}

theorem sound (moves : RoomMoves before marks after) (sound : before.Sound) : after.Sound := by
  induction moves with
  | nil view => exact sound
  | cons move rest ih => exact ih (move.sound sound)

theorem keyed (moves : RoomMoves before marks after) (keyed : before.Keyed)
    (punctual : ∀ mark ∈ marks, ∀ nowMs, mark ≠ .timedOut nowMs) :
    after.Keyed := by
  induction moves with
  | nil view => exact keyed
  | @cons first second third mark marks move rest ih =>
      have next := move.keyed keyed (punctual mark List.mem_cons_self)
      exact ih next fun later member =>
        punctual later (List.mem_cons_of_mem mark member)

/-- A wait began with the last JOIN; without one it went on, in silence. -/
theorem waits (moves : RoomMoves before marks after) (sound : before.Sound)
    (waits : after.Waits) (name : String) :
    (∃ secret, RoomMark.requested secret ∈ marks ∧
      (joinsOf marks).getLast? = some secret.key ∧
      (after.secret = none ∨ after.secret = secret.pending)) ∨
    joinsOf marks = [] ∧ secretsOf name marks = [] ∧ before.Waits ∧
      (after.secret = none ∨ after.secret = before.secret) := by
  induction moves with
  | nil view => exact Or.inr ⟨rfl, rfl, waits, Or.inr rfl⟩
  | @cons first second third mark marks move rest ih =>
      have joins : joinsOf (mark :: marks) = joinsOf [mark] ++ joinsOf marks :=
        joinsOf_append [mark] marks
      have secrets : secretsOf name (mark :: marks) =
          mark.secrets name ++ secretsOf name marks :=
        List.flatMap_cons
      rcases ih (move.sound sound) waits with
        ⟨secret, member, last, carried⟩ | ⟨silent, quiet, waited, kept⟩
      · refine Or.inl ⟨secret, List.mem_cons_of_mem mark member, ?_, carried⟩
        rw [joins, List.getLast?_append, last, Option.some_or]
      · rcases move.waits sound waited name with
          ⟨secret, isRequest, carried⟩ | ⟨still, mute, earlier, same⟩
        · refine Or.inl ⟨secret, ?_, ?_, ?_⟩
          · rw [isRequest]
            exact List.mem_cons_self
          · rw [joins, silent, isRequest]
            rfl
          · rw [← carried]
            exact kept
        · refine Or.inr ⟨?_, ?_, earlier, ?_⟩
          · rw [joins, still, silent, List.append_nil]
          · rw [secrets, mute, quiet, List.append_nil]
          · rcases kept with none | unchanged
            · exact Or.inl none
            · rw [unchanged]
              exact same

/-- Without a JOIN at most one action comes of the moves, and none where
nothing waits. -/
theorem secrets_le (moves : RoomMoves before marks after) (sound : before.Sound) (name : String)
    (unasked : ∀ secret, RoomMark.requested secret ∉ marks) :
    (secretsOf name marks).length ≤ 1 ∧
      (¬before.Waits → secretsOf name marks = []) := by
  induction moves with
  | nil view => exact ⟨Nat.zero_le 1, fun _ => rfl⟩
  | @cons first second third mark marks move rest ih =>
      obtain ⟨atMost, none⟩ := ih (move.sound sound)
        fun secret member => unasked secret (List.mem_cons_of_mem mark member)
      have split : secretsOf name (mark :: marks) =
          mark.secrets name ++ secretsOf name marks :=
        List.flatMap_cons
      by_cases quiet : mark.secrets name = []
      · rw [split, quiet, List.nil_append]
        refine ⟨atMost, fun idle => none fun later => ?_⟩
        rcases move.waits sound later name with
          ⟨secret, isRequest, -⟩ | ⟨-, -, waited, -⟩
        · rw [isRequest] at unasked
          exact unasked secret List.mem_cons_self
        · exact idle waited
      · obtain ⟨waited, done⟩ := move.acts quiet
        rw [split, none done, List.append_nil]
        refine ⟨?_, fun idle => absurd waited idle⟩
        cases mark with
        | confirmed proved => exact Option.length_toList_le
        | refused pending hubText => exact Option.length_toList_le
        | _ => exact absurd rfl quiet

/-- A room is joined by an answer of the hub; without one it stays so. -/
theorem joined (moves : RoomMoves before marks after) {since : Nat}
    (joined : after.phase = some (.joined, since)) :
    (∃ mark ∈ marks, mark.Grants) ∨ joinsOf marks = [] ∧
      ∃ earlier, before.phase = some (.joined, earlier) := by
  induction moves with
  | nil view => exact Or.inr ⟨rfl, since, joined⟩
  | @cons first second third mark marks move rest ih =>
      rcases ih joined with
        ⟨later, member, grants⟩ | ⟨silent, earlier, wasJoined⟩
      · exact Or.inl ⟨later, List.mem_cons_of_mem mark member, grants⟩
      · rcases move.joined wasJoined with grants | ⟨still, before⟩
        · exact Or.inl ⟨mark, List.mem_cons_self, grants⟩
        · refine Or.inr ⟨?_, before⟩
          have joins := joinsOf_append [mark] marks
          rw [still, silent, List.append_nil] at joins
          exact joins

/-- A room is being joined by a JOIN, or was before. -/
theorem joining (moves : RoomMoves before marks after) {since : Nat}
    (joining : after.phase = some (.joining, since)) :
    (∃ secret, RoomMark.requested secret ∈ marks) ∨
      ∃ earlier, before.phase = some (.joining, earlier) := by
  induction moves with
  | nil view => exact Or.inr ⟨since, joining⟩
  | @cons first second third mark marks move rest ih =>
      rcases ih joining with
        ⟨secret, member⟩ | ⟨earlier, wasJoining⟩
      · exact Or.inl ⟨secret, List.mem_cons_of_mem mark member⟩
      · rcases move.joining wasJoining with ⟨secret, isRequest⟩ | before
        · refine Or.inl ⟨secret, ?_⟩
          rw [isRequest]
          exact List.mem_cons_self
        · exact Or.inr before

/-- The moves up to one of them. -/
theorem upTo {early late : List RoomMark} {mark : RoomMark}
    (moves : RoomMoves before (early ++ mark :: late) after) :
    ∃ middle reached, RoomMoves before early middle ∧
      RoomMove middle mark reached := by
  induction early generalizing before with
  | nil =>
      cases moves with
      | @cons _ second _ _ _ move rest => exact ⟨before, second, .nil before, move⟩
  | cons first early ih =>
      cases moves with
      | @cons _ second _ _ _ move rest =>
          obtain ⟨middle, reached, reaching, last⟩ :=
            ih rest
          exact ⟨middle, reached, .cons move reaching, last⟩

end RoomMoves

end Ratspeak
