import Ratspeak.Database.HistoryCeilings
import Ratspeak.Database.HistoryReading

/-!
# What changes do to the channel history

A change adds rows behind all others and takes rows away, and it never touches
a row that stays.  Marks only advance, until the identity is deleted with all
that it has.  What is unread is counted over exactly the rows behind the mark.
-/

namespace Ratspeak

open Library

/-! ## Kept by every change -/

/-- What holds of every row that was accepted. -/
structure ChannelHistoryRow.Accepted (row : ChannelHistoryRow) : Prop where
  numbered : 0 < row.sequence
  recorded : 0 ≤ row.recordedAtMs
  mention : row.event.mentioned = true →
    row.event.ours = false ∧ row.event.kind.allowsMention = true

namespace ChannelHistoryDb

structure Kept (db : ChannelHistoryDb) : Prop where
  coherent : db.Coherent
  accepted : ∀ row ∈ db.rows, row.Accepted
  levels : ∀ room state, db.roomState.lookup room = some state →
    (ChannelRoomNotificationLevel.fromStorage state.notificationLevel).isSome = true

/-- Rows come only behind all that were drawn, and what stays is as it
was. -/
structure Grows (before after : ChannelHistoryDb) : Prop where
  drawn : before.sequencesDrawn ≤ after.sequencesDrawn
  rows : ∀ row ∈ after.rows, row ∈ before.rows ∨ before.sequencesDrawn < row.sequence

/-- The mark of a room does not fall, and a room that has one keeps it. -/
def Advances (before after : ChannelHistoryDb) (room : ChannelRoom) : Prop :=
  ∀ state, before.roomState.lookup room = some state →
    ∃ later, after.roomState.lookup room = some later ∧
      state.lastReadSequence ≤ later.lastReadSequence

theorem Grows.refl (db : ChannelHistoryDb) : db.Grows db :=
  ⟨Nat.le_refl _, fun _ member => Or.inl member⟩

theorem Grows.trans {first second third : ChannelHistoryDb}
    (earlier : first.Grows second) (later : second.Grows third) :
    first.Grows third := by
  refine ⟨earlier.drawn.trans later.drawn, ?_⟩
  intro row member
  rcases later.rows row member with kept | isNew
  · exact earlier.rows row kept
  · exact Or.inr (earlier.drawn.trans_lt isNew)

theorem Advances.refl (db : ChannelHistoryDb) (room : ChannelRoom) :
    db.Advances db room :=
  fun state found => ⟨state, found, Nat.le_refl _⟩

theorem Advances.trans {first second third : ChannelHistoryDb}
    {room : ChannelRoom} (earlier : first.Advances second room)
    (later : second.Advances third room) : first.Advances third room := by
  intro state found
  obtain ⟨middle, isMiddle, rises⟩ := earlier state found
  obtain ⟨last, isLast, risesOn⟩ := later middle isMiddle
  exact ⟨last, isLast, rises.trans risesOn⟩

/-- Tables that differ in the states of rooms only. -/
theorem Kept.withRoomState {db : ChannelHistoryDb} (kept : db.Kept)
    {roomState : FiniteMap ChannelRoom ChannelRoomState}
    (levels : ∀ room state, roomState.lookup room = some state →
      (ChannelRoomNotificationLevel.fromStorage state.notificationLevel).isSome = true) :
    ({ db with roomState := roomState } : ChannelHistoryDb).Kept where
  coherent := ⟨kept.coherent.usage, kept.coherent.keys,
    kept.coherent.sequences, kept.coherent.drawn⟩
  accepted := kept.accepted
  levels := levels

theorem grows_withRoomState (db : ChannelHistoryDb)
    (roomState : FiniteMap ChannelRoom ChannelRoomState) :
    db.Grows { db with roomState := roomState } :=
  ⟨Nat.le_refl _, fun _ member => Or.inl member⟩

/-- A state with a proper level that is put in keeps the levels proper. -/
private theorem levels_insert {db : ChannelHistoryDb} (kept : db.Kept)
    (room : ChannelRoom) {state : ChannelRoomState}
    (proper : (ChannelRoomNotificationLevel.fromStorage
      state.notificationLevel).isSome = true) :
    ∀ tested found,
      (AList.insert room state db.roomState).lookup tested = some found →
        (ChannelRoomNotificationLevel.fromStorage
          found.notificationLevel).isSome = true := by
  intro tested found isFound
  rw [FiniteMap.lookup_insert_ite] at isFound
  by_cases same : tested = room
  · rw [if_pos same] at isFound
    exact Option.some.inj isFound ▸ proper
  · rw [if_neg same] at isFound
    exact kept.levels tested found isFound

/-- A state that is put in for one with a lower mark advances all rooms. -/
private theorem advances_insert (db : ChannelHistoryDb) (room : ChannelRoom)
    {state : ChannelRoomState} (rises : ∀ before, db.roomState.lookup room = some before →
      before.lastReadSequence ≤ state.lastReadSequence)
    (tested : ChannelRoom) :
    db.Advances { db with roomState := db.roomState.insert room state }
      tested := by
  intro before found
  by_cases same : tested = room
  · refine ⟨state, ?_, rises before (same ▸ found)⟩
    rw [same]
    exact AList.lookup_insert db.roomState
  · refine ⟨before, ?_, Nat.le_refl _⟩
    rw [← found]
    exact AList.lookup_insert_ne same

/-! ## Statements -/

theorem fromStorage_asStorage (level : ChannelRoomNotificationLevel) :
    ChannelRoomNotificationLevel.fromStorage level.asStorage =
      some level := by
  cases level <;> rfl

/-- What an accepted event becomes is an accepted row. -/
theorem Kept.insertEvent {db : ChannelHistoryDb} (kept : db.Kept)
    (identityId : String) {recordedAtMs : Int}
    {event : NewChannelHistoryEvent} (recorded : 0 ≤ recordedAtMs)
    (mention : event.mentioned = true → event.ours = false ∧ event.kind.allowsMention = true) :
    (ChannelHistoryDb.insertEvent identityId recordedAtMs event
      db).2.Kept where
  coherent := kept.coherent.insertEvent identityId recordedAtMs event
  accepted := by
    unfold ChannelHistoryDb.insertEvent
    dsimp only
    split
    · exact kept.accepted
    · intro row member
      rcases List.mem_append.mp member with earlier | isNew
      · exact kept.accepted row earlier
      · rw [List.mem_singleton.mp isNew]
        exact ⟨Nat.succ_pos _, recorded, mention⟩
  levels := by
    unfold ChannelHistoryDb.insertEvent
    dsimp only
    split
    · exact kept.levels
    · exact kept.levels

theorem grows_insertEvent (identityId : String) (recordedAtMs : Int)
    (event : NewChannelHistoryEvent) (db : ChannelHistoryDb) :
    db.Grows (insertEvent identityId recordedAtMs event db).2 := by
  unfold ChannelHistoryDb.insertEvent
  dsimp only
  split
  · exact ⟨Nat.le_succ _, fun row member => Or.inl member⟩
  · refine ⟨Nat.le_succ _, ?_⟩
    intro row member
    rcases List.mem_append.mp member with earlier | isNew
    · exact Or.inl earlier
    · rw [List.mem_singleton.mp isNew]
      exact Or.inr (Nat.lt_succ_self _)

theorem roomState_insertEvent (identityId : String) (recordedAtMs : Int)
    (event : NewChannelHistoryEvent) (db : ChannelHistoryDb) :
    (insertEvent identityId recordedAtMs event db).2.roomState =
      db.roomState := by
  unfold ChannelHistoryDb.insertEvent
  dsimp only
  split
  · rfl
  · rfl

theorem Kept.noteRoom {db : ChannelHistoryDb} (kept : db.Kept)
    (identityId : String) (recordedAtMs : Int) (event : NewChannelHistoryEvent) :
    (ChannelHistoryDb.noteRoom identityId recordedAtMs event db).Kept := by
  unfold ChannelHistoryDb.noteRoom
  dsimp only
  split
  · exact kept
  · exact kept.withRoomState (levels_insert kept _ rfl)

theorem grows_noteRoom (identityId : String) (recordedAtMs : Int)
    (event : NewChannelHistoryEvent) (db : ChannelHistoryDb) :
    db.Grows (noteRoom identityId recordedAtMs event db) := by
  unfold ChannelHistoryDb.noteRoom
  dsimp only
  split
  · exact Grows.refl db
  · exact grows_withRoomState db _

theorem advances_noteRoom (identityId : String) (recordedAtMs : Int)
    (event : NewChannelHistoryEvent) (db : ChannelHistoryDb) (tested : ChannelRoom) :
    db.Advances (noteRoom identityId recordedAtMs event db) tested := by
  unfold ChannelHistoryDb.noteRoom
  dsimp only
  split
  · exact Advances.refl db tested
  · rename_i isNew
    apply advances_insert
    intro before found
    rw [found] at isNew
    exact (isNew rfl).elim

theorem Kept.deleteWhere {db : ChannelHistoryDb} (kept : db.Kept)
    (selects : ChannelHistoryRow → Bool) :
    (ChannelHistoryDb.deleteWhere selects db).2.Kept where
  coherent := kept.coherent.deleteWhere selects
  accepted row member := kept.accepted row (List.mem_of_mem_filter member)
  levels := kept.levels

theorem grows_deleteWhere (selects : ChannelHistoryRow → Bool)
    (db : ChannelHistoryDb) : db.Grows (deleteWhere selects db).2 :=
  ⟨Nat.le_refl _, fun _ member => Or.inl (List.mem_of_mem_filter member)⟩

/-! ## Programs -/

/-- What every insert of an event of a batch, every room that is noted and
every deletion keeps, an append keeps. -/
theorem keeps_appendProgram_of {invariant : ChannelHistoryDb → Prop}
    {identityId : String} {events : List NewChannelHistoryEvent} {recordedAtMs : Int}
    (inserts : ∀ event ∈ events, ∀ db, invariant db →
      invariant (insertEvent identityId recordedAtMs event db).2)
    (notes : ∀ event db, invariant db → invariant (noteRoom identityId recordedAtMs event db))
    (deletes : ∀ selects db, invariant db → invariant (deleteWhere selects db).2)
    (retention : ChannelHistoryRetentionPolicy) :
    Tx.Keeps invariant
      (appendProgram identityId events recordedAtMs retention)
      (fun _ => invariant) := by
  have prunes (scope : ChannelHistoryRetentionScope)
      (maxEvents maxPayloadBytes : Nat) :
      Tx.Keeps invariant
        (pruneChannelHistoryScope scope maxEvents maxPayloadBytes)
        (fun _ => invariant) := by
    rw [pruneChannelHistoryScope]
    apply Tx.keeps_require_bind
    intro _
    apply Tx.keeps_require_bind
    intro _
    apply Tx.settles_query_bind
    intro db held
    dsimp only
    split
    · apply Tx.settles_pure
      intro reached same
      exact same ▸ held
    · apply Tx.settles_statement
      intro reached same
      exact same ▸ deletes _ db held
  have appends : Tx.Keeps invariant
      (Tx.forEach (appendEvent identityId recordedAtMs) events.zipIdx)
      (fun _ => invariant) := by
    apply (Tx.settles_forEach
      (fun done _ db => (∀ entry ∈ done, entry.1 ∈ events) → invariant db)
      (fun done values entry => ?_) events.zipIdx).weaken
    · intro db held _
      exact held
    · intro _ after held
      apply held
      intro entry member
      exact List.fst_mem_of_mem_zipIdx member
    · rw [appendEvent]
      apply Tx.settles_statement_bind
      intro db held
      apply Tx.settles_execute_bind
      intro inserted isInserted
      apply Tx.settles_pure
      intro reached isReached known
      rw [isReached, isInserted]
      apply notes
      apply inserts entry.1 (known entry (by simp))
      apply held
      intro other member
      exact known other (List.mem_append_left _ member)
  rw [appendProgram]
  apply appends.bind
  intro appended
  apply Tx.settles_statement_bind
  intro inserted held
  have expired := deletes (fun row => row.recordedAtMs <
    historyCutoff recordedAtMs retention.maxAgeMs) inserted held
  have rooms : Tx.Keeps invariant
      (Tx.forEach (fun room => pruneChannelHistoryScope (.room room)
        retention.maxEventsPerRoom retention.maxPayloadBytesPerRoom)
        (touchedRooms identityId events)) (fun _ => invariant) :=
    Tx.settles_forEach (fun _ _ => invariant)
      (fun _ _ room => prunes (.room room) _ _) _
  have afterExpiry : Tx.Keeps
      (fun db => db = (deleteWhere (fun row => row.recordedAtMs <
        historyCutoff recordedAtMs retention.maxAgeMs) inserted).2)
      (Tx.forEach (fun room => pruneChannelHistoryScope (.room room)
        retention.maxEventsPerRoom retention.maxPayloadBytesPerRoom)
        (touchedRooms identityId events)) (fun _ => invariant) :=
    rooms.weaken (fun _ same => same ▸ expired) (fun _ _ ends => ends)
  apply afterExpiry.bind
  intro byRoom
  apply (prunes (.identity identityId) _ _).bind
  intro byIdentity
  apply (prunes .global _ _).bind
  intro byAll
  apply Tx.settles_query_bind
  intro after isAfter
  apply Tx.settles_pure
  intro reached same
  exact same ▸ isAfter

/-! ## Changes -/

variable {invariant : ChannelHistoryDb → Prop} {db : ChannelHistoryDb}

theorem transact_holds {Value : Type} {program : HistoryTx Value}
    (keeps : Tx.Keeps invariant program (fun _ => invariant))
    (call : ChannelHistoryCall) (answer : Value → ChannelHistoryAnswer) (held : invariant db) :
    invariant (db.transact call program answer).tables :=
  Tx.immediate_keeps (keeps.bind fun _ => Tx.settles_pure fun _ ends => ends) _ _ held

/-- All that a change does that deletes no identity: what is kept stays
kept, rows come behind, and marks advance. -/
structure Moves (before after : ChannelHistoryDb) : Prop where
  kept : after.Kept
  grows : before.Grows after
  advances : ∀ room, before.Advances after room

theorem Kept.moves (kept : db.Kept) : db.Moves db :=
  ⟨kept, Grows.refl db, Advances.refl db⟩

theorem Moves.deleteWhere {before : ChannelHistoryDb}
    (moves : before.Moves db) (selects : ChannelHistoryRow → Bool) :
    before.Moves (ChannelHistoryDb.deleteWhere selects db).2 :=
  ⟨moves.kept.deleteWhere selects,
    moves.grows.trans (grows_deleteWhere selects db), moves.advances⟩

theorem Moves.noteRoom {before : ChannelHistoryDb}
    (moves : before.Moves db) (identityId : String) (recordedAtMs : Int)
    (event : NewChannelHistoryEvent) :
    before.Moves (ChannelHistoryDb.noteRoom identityId recordedAtMs event db) :=
  ⟨moves.kept.noteRoom identityId recordedAtMs event,
    moves.grows.trans (grows_noteRoom identityId recordedAtMs event db),
    fun room => (moves.advances room).trans
      (advances_noteRoom identityId recordedAtMs event db room)⟩

theorem Moves.insertEvent {before : ChannelHistoryDb}
    (moves : before.Moves db) (identityId : String) {recordedAtMs : Int}
    {event : NewChannelHistoryEvent} (recorded : 0 ≤ recordedAtMs)
    (mention : event.mentioned = true → event.ours = false ∧ event.kind.allowsMention = true) :
    before.Moves
      (ChannelHistoryDb.insertEvent identityId recordedAtMs event db).2 := by
  refine ⟨moves.kept.insertEvent identityId recorded mention,
    moves.grows.trans (grows_insertEvent identityId recordedAtMs event db),
    ?_⟩
  intro room state found
  rw [roomState_insertEvent]
  exact moves.advances room state found

variable [UnicodeTables]

/-- An event that passes its checks is a mention only where one is
allowed. -/
theorem mention_of_validated {identityId : String} {event : NewChannelHistoryEvent}
    (valid : validateChannelHistoryEvent identityId event = .ok ())
    (mentioned : event.mentioned = true) :
    event.ours = false ∧ event.kind.allowsMention = true := by
  unfold validateChannelHistoryEvent at valid
  obtain ⟨_, -, checks⟩ := bind_eq_ok valid
  split at checks
  · cases checks
  · split at checks
    · cases checks
    · split at checks
      · cases checks
      · split at checks
        · cases checks
        · split at checks
          · cases checks
          · split at checks
            · cases checks
            · rename_i allowed
              rw [mentioned, Bool.true_and, Bool.or_eq_true] at allowed
              have both := not_or.mp allowed
              exact ⟨Bool.eq_false_iff.mpr both.1, by simpa using both.2⟩

private theorem validated_of_mapM {identityId : String}
    {events : List NewChannelHistoryEvent} {results : List Unit}
    (valid : events.mapM (validateChannelHistoryEvent identityId) = .ok results) :
    ∀ event ∈ events,
      validateChannelHistoryEvent identityId event = .ok () := by
  induction events generalizing results with
  | nil =>
      intro event member
      cases member
  | cons first rest ih =>
      rw [List.mapM_cons] at valid
      obtain ⟨_, isFirst, others⟩ := bind_eq_ok valid
      obtain ⟨later, areLater, -⟩ := bind_eq_ok others
      intro event member
      rcases List.mem_cons.mp member with same | inRest
      · rw [same]
        exact isFirst
      · exact ih areLater event inRest

theorem Kept.moves_step (kept : db.Kept) (retention : ChannelHistoryRetentionPolicy)
    (input : ChannelHistoryCall × ChannelHistoryOp) :
    db.Moves (db.step retention input) := by
  have deletes (call : ChannelHistoryCall)
      (selects : ChannelHistoryRow → Bool) :
      db.Moves (db.transact call
        (Tx.statement (ChannelHistoryDb.deleteWhere selects))
        .deleted).tables := by
    apply transact_holds _ call _ kept.moves
    apply Tx.settles_statement
    intro tables moves
    exact moves.deleteWhere selects
  obtain ⟨call, op⟩ := input
  cases op with
  | append identityId events recordedAtMs =>
      unfold ChannelHistoryDb.step perform appendChannelHistoryEvents
      dsimp only
      split
      · exact kept.moves
      · split
        · exact kept.moves
        · rename_i sensible
          rw [Bool.or_eq_true, decide_eq_true_eq] at sensible
          have recorded : 0 ≤ recordedAtMs :=
            Int.not_lt.mp (not_or.mp sensible).1
          split
          · exact kept.moves
          · split
            · exact kept.moves
            · rename_i results valid
              apply transact_holds _ call _ kept.moves
              apply keeps_appendProgram_of
              · intro event member tables moves
                exact moves.insertEvent identityId recorded
                  (mention_of_validated (validated_of_mapM valid event member))
              · intro event tables moves
                exact moves.noteRoom identityId recordedAtMs event
              · intro selects tables moves
                exact moves.deleteWhere selects
  | pruneExpired nowMs => exact deletes call _
  | clearRoom identityId hubDestinationHash roomName =>
      unfold ChannelHistoryDb.step perform
      dsimp only
      split
      · exact kept.moves
      · exact deletes call _
  | clearIdentity identityId =>
      unfold ChannelHistoryDb.step perform
      dsimp only
      split
      · exact kept.moves
      · exact deletes call _

/-! ## Marks -/

omit [UnicodeTables] in
/-- A state that is put in for one with a lower mark, with a proper level. -/
private theorem Moves.insertState {before : ChannelHistoryDb}
    (moves : before.Moves db) (room : ChannelRoom) {state : ChannelRoomState}
    (proper : (ChannelRoomNotificationLevel.fromStorage state.notificationLevel).isSome = true)
    (rises : ∀ earlier, db.roomState.lookup room = some earlier →
      earlier.lastReadSequence ≤ state.lastReadSequence) :
    before.Moves { db with roomState := db.roomState.insert room state } :=
  ⟨moves.kept.withRoomState (levels_insert moves.kept room proper),
    moves.grows.trans (grows_withRoomState db _),
    fun tested => (moves.advances tested).trans
      (advances_insert db room rises tested)⟩

omit [UnicodeTables] in
theorem Moves.advanceLastRead {before : ChannelHistoryDb}
    (moves : before.Moves db) (room : ChannelRoom) (through : Nat) (nowMs : Int) :
    before.Moves (ChannelHistoryDb.advanceLastRead room through nowMs
      db) := by
  unfold ChannelHistoryDb.advanceLastRead
  split
  · rename_i isNew
    apply moves.insertState room rfl
    intro earlier found
    rw [isNew] at found
    cases found
  · rename_i state isState
    split
    · rename_i behind
      apply moves.insertState room
      · exact moves.kept.levels room state isState
      · intro earlier found
        rw [isState] at found
        exact Option.some.inj found ▸ behind.le
    · exact moves

omit [UnicodeTables] in
theorem Moves.storeLevel {before : ChannelHistoryDb}
    (moves : before.Moves db) (room : ChannelRoom)
    (level : ChannelRoomNotificationLevel) (nowMs : Int) :
    before.Moves (ChannelHistoryDb.storeLevel room level nowMs db) := by
  unfold ChannelHistoryDb.storeLevel
  cases found : db.roomState.lookup room with
  | none =>
      apply moves.insertState room
      · rw [fromStorage_asStorage]
        rfl
      · intro earlier isEarlier
        rw [found] at isEarlier
        cases isEarlier
  | some state =>
      apply moves.insertState room
      · rw [fromStorage_asStorage]
        rfl
      · intro earlier isEarlier
        rw [found] at isEarlier
        exact Option.some.inj isEarlier ▸ Nat.le_refl _

omit [UnicodeTables] in
theorem Moves.storeTopic {before : ChannelHistoryDb}
    (moves : before.Moves db) (room : ChannelRoom) (nowMs : Int) :
    before.Moves (ChannelHistoryDb.storeTopic room nowMs db) := by
  unfold ChannelHistoryDb.storeTopic
  cases found : db.roomState.lookup room with
  | none =>
      apply moves.insertState room rfl
      intro earlier isEarlier
      rw [found] at isEarlier
      cases isEarlier
  | some state =>
      apply moves.insertState room
      · exact moves.kept.levels room state found
      · intro earlier isEarlier
        rw [found] at isEarlier
        exact Option.some.inj isEarlier ▸ Nat.le_refl _

omit [UnicodeTables] in
private theorem keeps_answerReadState (invariant : ChannelHistoryDb → Prop)
    (hubDestinationHash roomName : String) (room : ChannelRoom) :
    Tx.Keeps invariant (answerReadState hubDestinationHash roomName room)
      (fun _ => invariant) := by
  rw [answerReadState]
  apply Tx.settles_query_bind
  intro tables held
  split
  · exact Tx.keeps_throw _
  · apply Tx.settles_pure
    intro reached same
    exact same ▸ held

/-- What advancing the mark keeps, marking a room as read keeps. -/
theorem markChannelRoomRead_keeps {call : ChannelHistoryCall}
    {identityId hubDestinationHash roomName through : String} {nowMs : Int}
    (advances : ∀ room through tables, invariant tables →
      invariant (advanceLastRead room through nowMs tables))
    (held : invariant db) :
    invariant (db.markChannelRoomRead call identityId hubDestinationHash
      roomName through nowMs).tables := by
  unfold markChannelRoomRead
  split
  · exact held
  · split
    · exact held
    · rename_i position _
      apply Tx.immediate_keeps _ _ _ held
      have answers := keeps_answerReadState invariant hubDestinationHash
        roomName (identityId, hubDestinationHash, roomName)
      have moves : Tx.Keeps invariant
          (advanceProgram (identityId, hubDestinationHash, roomName)
            position.toNat nowMs) (fun _ => invariant) := by
        rw [advanceProgram]
        apply Tx.settles_query_bind
        intro tables found
        apply Tx.keeps_require_bind
        intro _
        apply Tx.settles_execute
        intro reached same
        exact same ▸ advances _ _ tables found
      rw [markReadProgram]
      apply Tx.settles_query_bind
      intro tables found
      have here : ∀ reached, reached = tables → invariant reached :=
        fun reached same => same ▸ found
      dsimp only
      split
      · exact (moves.bind fun _ => answers).weaken here
          (fun _ _ ends => ends)
      · exact answers.weaken here (fun _ _ ends => ends)

theorem setChannelRoomNotificationLevel_keeps {call : ChannelHistoryCall}
    {identityId hubDestinationHash roomName : String}
    {level : ChannelRoomNotificationLevel} {nowMs : Int}
    (stores : ∀ room tables, invariant tables → invariant (storeLevel room level nowMs tables))
    (held : invariant db) :
    invariant (db.setChannelRoomNotificationLevel call identityId
      hubDestinationHash roomName level nowMs).tables := by
  unfold setChannelRoomNotificationLevel
  split
  · exact held
  · apply Tx.immediate_keeps _ _ _ held
    rw [setLevelProgram]
    apply Tx.settles_execute_bind
    intro tables found
    exact (keeps_answerReadState invariant _ _ _).weaken
      (fun _ same => same ▸ stores _ tables found) (fun _ _ ends => ends)

/-! ## All changes -/

omit [UnicodeTables] in
theorem Kept.deleteIdentityRows (kept : db.Kept) (identityId : String) :
    (ChannelHistoryDb.deleteIdentityRows identityId db).Kept := by
  have deleted := kept.deleteWhere fun row => row.identityId = identityId
  have sameUsage : Tally.Exact ChannelHistoryRow.room
      ChannelHistoryRow.payloadBytes
      (ChannelHistoryDb.deleteIdentityRows identityId db).roomUsage
      (ChannelHistoryDb.deleteIdentityRows identityId db).rows := by
    intro room
    rw [ChannelHistoryDb.deleteIdentityRows]
    dsimp only
    rw [FiniteMap.lookup_retain, deleted.coherent.usage room]
    by_cases own : room.1 = identityId
    · have none_left : Tally.members ChannelHistoryRow.room
          (ChannelHistoryDb.deleteWhere
            (fun row => row.identityId = identityId) db).2.rows room =
          [] := by
        rw [Tally.members, List.filter_eq_nil_iff]
        intro row member inRoom
        have spared := (List.mem_filter.mp member).2
        rw [Bool.not_eq_true', decide_eq_false_iff_not] at spared
        rw [decide_eq_true_eq] at inRoom
        exact spared (own ▸ inRoom ▸ rfl)
      rw [if_pos none_left]
      rfl
    · split
      · rfl
      · simp [own]
  refine ⟨⟨sameUsage, deleted.coherent.keys, deleted.coherent.sequences,
    deleted.coherent.drawn⟩, deleted.accepted, ?_⟩
  intro room state found
  rw [ChannelHistoryDb.deleteIdentityRows] at found
  dsimp only at found
  rw [FiniteMap.lookup_retain, Option.filter_eq_some_iff] at found
  exact deleted.levels room state found.1

/-- Tables that a run of changes can reach. -/
structure Stands (db : ChannelHistoryDb) : Prop where
  kept : db.Kept
  drawn : db.sequencesDrawn ≤ i64Max

/-- What a change does: rows come behind all others, and a mark advances
unless its identity is deleted. -/
structure Changes (change : ChannelHistoryChange)
    (before after : ChannelHistoryDb) : Prop where
  stands : after.Stands
  grows : before.Grows after
  advances : ∀ room : ChannelRoom, change ≠ .deleteIdentity room.1 → before.Advances after room

/-- A move after which sequences are left. -/
def MovesWithin (before after : ChannelHistoryDb) : Prop :=
  before.Moves after ∧ after.sequencesDrawn ≤ i64Max

omit [UnicodeTables] in
private theorem MovesWithin.changes {before after : ChannelHistoryDb}
    (moves : before.MovesWithin after) (change : ChannelHistoryChange) :
    Changes change before after :=
  ⟨⟨moves.1.kept, moves.2⟩, moves.1.grows, fun room _ => moves.1.advances room⟩

theorem Stands.change (stands : db.Stands)
    (retention : ChannelHistoryRetentionPolicy) (call : ChannelHistoryCall)
    (change : ChannelHistoryChange) :
    Changes change db (db.change retention call change) := by
  have still : db.MovesWithin db :=
    ⟨stands.kept.moves, stands.drawn⟩
  cases change with
  | history op =>
      rw [ChannelHistoryDb.change, withinSequences]
      split
      · rename_i enough
        have moves : db.MovesWithin (db.step retention (call, op)) :=
          ⟨stands.kept.moves_step retention (call, op), enough⟩
        exact moves.changes _
      · exact still.changes _
  | markRead identityId hubDestinationHash roomName through nowMs =>
      have moves : db.MovesWithin (db.markChannelRoomRead call identityId
          hubDestinationHash roomName through nowMs).tables := by
        apply markChannelRoomRead_keeps _ still
        intro room position tables held
        refine ⟨held.1.advanceLastRead room position nowMs, ?_⟩
        unfold ChannelHistoryDb.advanceLastRead
        split
        · exact held.2
        · split
          · exact held.2
          · exact held.2
      exact moves.changes _
  | setLevel identityId hubDestinationHash roomName level nowMs =>
      have moves : db.MovesWithin (db.setChannelRoomNotificationLevel call
          identityId hubDestinationHash roomName level nowMs).tables := by
        apply setChannelRoomNotificationLevel_keeps _ still
        intro room tables held
        exact ⟨held.1.storeLevel room level nowMs, held.2⟩
      exact moves.changes _
  | saveTopic identityId hubDestinationHash roomName nowMs =>
      have stores : Tx.Keeps db.MovesWithin
          (Tx.execute (storeTopic (identityId, hubDestinationHash, roomName)
            nowMs) : HistoryTx PUnit) (fun _ => db.MovesWithin) := by
        apply Tx.settles_execute
        intro tables held
        exact ⟨held.1.storeTopic _ nowMs, held.2⟩
      have moves := Tx.immediate_keeps stores call.circumstances
        (call.commitFails.getD "") still
      exact moves.changes _
  | deleteIdentity identityId =>
      have deletes : Tx.Keeps (fun tables => tables = db)
          (Tx.execute (deleteIdentityRows identityId) : HistoryTx PUnit)
          (fun _ tables => tables = deleteIdentityRows identityId db) := by
        apply Tx.settles_execute
        intro tables same
        rw [same]
      rcases Tx.immediate_cases deletes call.circumstances
          (call.commitFails.getD "") rfl with
        ⟨_, -, ends, -⟩ | ⟨-, same, -⟩
      · rw [ChannelHistoryDb.change, ends]
        have deleted :=
          grows_deleteWhere (fun row => row.identityId = identityId) db
        refine ⟨⟨stands.kept.deleteIdentityRows identityId, stands.drawn⟩,
          ⟨deleted.drawn, deleted.rows⟩, ?_⟩
        intro room other state found
        refine ⟨state, ?_, Nat.le_refl _⟩
        have notOwn : room.1 ≠ identityId :=
          fun own => other (own ▸ rfl)
        rw [deleteIdentityRows]
        dsimp only
        rw [FiniteMap.lookup_retain, Option.filter_eq_some_iff]
        exact ⟨found, decide_eq_true notOwn⟩
      · rw [ChannelHistoryDb.change, same]
        exact still.changes _

end ChannelHistoryDb

end Ratspeak
