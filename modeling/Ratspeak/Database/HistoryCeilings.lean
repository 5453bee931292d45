import Ratspeak.Database.History
import Ratspeak.Library.Runs

/-!
# Channel history within its ceilings

Over every run the tally of each room is exact and no event is stored twice.
A prune removes the smallest prefix of the oldest rows of its scope after
which the rest is within both ceilings, and later prunes only remove more, so
that after an append every scope that it pruned is within its ceilings.
-/

namespace Ratspeak

open Library Tally

/-! ## Coherent tables -/

/-- The triggers and the constraints of the tables hold. -/
structure ChannelHistoryDb.Coherent (db : ChannelHistoryDb) : Prop where
  usage : Exact ChannelHistoryRow.room ChannelHistoryRow.payloadBytes db.roomUsage db.rows
  keys : (db.rows.map ChannelHistoryRow.key).Nodup
  sequences : (db.rows.map ChannelHistoryRow.sequence).Pairwise (· < ·)
  drawn : ∀ row ∈ db.rows, row.sequence ≤ db.sequencesDrawn

namespace ChannelHistoryDb

theorem coherent_fresh : fresh.Coherent where
  usage := exact_nil
  keys := List.nodup_nil
  sequences := List.Pairwise.nil
  drawn _ member := nomatch member

theorem Coherent.insertEvent {db : ChannelHistoryDb} (coherent : db.Coherent)
    (identityId : String) (recordedAtMs : Int) (event : NewChannelHistoryEvent) :
    (insertEvent identityId recordedAtMs event db).2.Coherent := by
  unfold ChannelHistoryDb.insertEvent
  dsimp only
  split
  · exact
      { coherent with
        drawn := fun row member => (coherent.drawn row member).trans (Nat.le_succ _) }
  · rename_i isNew
    refine ⟨coherent.usage.insert _, ?_, ?_, ?_⟩
    · rw [List.map_append, List.nodup_append]
      refine ⟨coherent.keys, List.nodup_singleton _, ?_⟩
      intro earlier member later isLater same
      obtain ⟨row, listed, isEarlier⟩ := List.mem_map.mp member
      apply isNew
      rw [List.any_eq_true]
      refine ⟨row, listed, ?_⟩
      rw [decide_eq_true_eq, isEarlier, same]
      exact List.mem_singleton.mp isLater
    · rw [List.map_append, List.pairwise_append]
      refine ⟨coherent.sequences, List.pairwise_singleton _ _, ?_⟩
      intro earlier member later isLater
      obtain ⟨row, listed, isEarlier⟩ := List.mem_map.mp member
      have isNext : later = db.sequencesDrawn + 1 :=
        List.mem_singleton.mp isLater
      have bound := coherent.drawn row listed
      omega
    · intro row member
      rcases List.mem_append.mp member with earlier | isNext
      · exact (coherent.drawn row earlier).trans (Nat.le_succ _)
      · rw [List.mem_singleton.mp isNext]

theorem rows_noteRoom (identityId : String) (recordedAtMs : Int)
    (event : NewChannelHistoryEvent) (db : ChannelHistoryDb) :
    (noteRoom identityId recordedAtMs event db).rows = db.rows := by
  unfold noteRoom
  dsimp only
  split <;> rfl

theorem Coherent.noteRoom {db : ChannelHistoryDb} (coherent : db.Coherent)
    (identityId : String) (recordedAtMs : Int) (event : NewChannelHistoryEvent) :
    (noteRoom identityId recordedAtMs event db).Coherent := by
  unfold ChannelHistoryDb.noteRoom
  dsimp only
  split
  · exact coherent
  · exact ⟨coherent.usage, coherent.keys, coherent.sequences, coherent.drawn⟩

theorem Coherent.deleteWhere {db : ChannelHistoryDb}
    (coherent : db.Coherent) (selects : ChannelHistoryRow → Bool) :
    (deleteWhere selects db).2.Coherent where
  usage := by
    have partitioned : (db.rows.filter selects ++
        db.rows.filter fun row => !selects row).Perm db.rows :=
      List.filter_append_perm selects db.rows
    exact (coherent.usage.perm partitioned.symm).deleteAll
  keys := coherent.keys.sublist (List.filter_sublist.map _)
  sequences := coherent.sequences.sublist (List.filter_sublist.map _)
  drawn row member := coherent.drawn row (List.mem_of_mem_filter member)

/-- The usage of a scope is the number and the size of its rows. -/
theorem Coherent.channelHistoryUsage {db : ChannelHistoryDb}
    (coherent : db.Coherent) (scope : ChannelHistoryRetentionScope) :
    channelHistoryUsage scope db =
      (((scope.rows db).length : Int),
        (totalSize ChannelHistoryRow.payloadBytes (scope.rows db) :
          Int)) := by
  cases scope with
  | room named =>
      have same : ChannelHistoryRetentionScope.rows (.room named) db =
          members ChannelHistoryRow.room db.rows named :=
        rfl
      rw [Ratspeak.channelHistoryUsage, coherent.usage named, same]
      by_cases empty : members ChannelHistoryRow.room db.rows named = []
      · rw [if_pos empty, empty]
        rfl
      · rw [if_neg empty]
  | identity owner =>
      exact Prod.ext (coherent.usage.count_select _) (coherent.usage.size_select _)
  | global =>
      exact Prod.ext (coherent.usage.count_select _) (coherent.usage.size_select _)

end ChannelHistoryDb

/-! ## Pruning -/

/-- A scope was pruned to its ceilings: the smallest prefix of its rows went
after which the rest fits, and no other row. -/
structure Prunes (scope : ChannelHistoryRetentionScope)
    (maxEvents maxPayloadBytes : Nat) (before after : ChannelHistoryDb) :
    Prop where
  least : ∃ removed,
    scope.rows after = (scope.rows before).drop removed ∧
      IsLeast
        {removed | Fits ChannelHistoryRow.payloadBytes maxEvents
          maxPayloadBytes ((scope.rows before).drop removed)}
        removed
  others : (after.rows.filter fun row => !scope.covers row.room) =
    before.rows.filter fun row => !scope.covers row.room
  order : after.rows.Sublist before.rows

/-- After the prune the scope is within its ceilings. -/
theorem Prunes.fits {scope : ChannelHistoryRetentionScope}
    {maxEvents maxPayloadBytes : Nat} {before after : ChannelHistoryDb}
    (prunes : Prunes scope maxEvents maxPayloadBytes before after) :
    Fits ChannelHistoryRow.payloadBytes maxEvents maxPayloadBytes
      (scope.rows after) := by
  obtain ⟨removed, isRest, fits, -⟩ := prunes.least
  rw [isRest]
  exact fits

/-- Where a scope fits already, nothing goes. -/
private theorem prunes_refl {scope : ChannelHistoryRetentionScope}
    {maxEvents maxPayloadBytes : Nat} {db : ChannelHistoryDb}
    (fits : Fits ChannelHistoryRow.payloadBytes maxEvents maxPayloadBytes
      (scope.rows db)) : Prunes scope maxEvents maxPayloadBytes db db where
  least := ⟨0, rfl, fits, fun _ _ => Nat.zero_le _⟩
  others := rfl
  order := List.Sublist.refl _

/-- The statement with the excesses of a scope prunes it. -/
private theorem prunes_channelHistoryPrune
    (scope : ChannelHistoryRetentionScope) (maxEvents maxPayloadBytes : Nat)
    {db : ChannelHistoryDb} (coherent : db.Coherent) :
    Prunes scope maxEvents maxPayloadBytes db
      (channelHistoryPrune scope (((scope.rows db).length : Int) - maxEvents)
        ((totalSize ChannelHistoryRow.payloadBytes (scope.rows db) : Int) -
          maxPayloadBytes) db).2 := by
  obtain ⟨removed, isPrefix, isLeast⟩ :=
    excessRows_least ChannelHistoryRow.payloadBytes maxEvents maxPayloadBytes (scope.rows db)
  have ofScope : (scope.rows db).Sublist db.rows :=
    List.filter_sublist
  have nodup : (db.rows.map ChannelHistoryRow.sequence).Nodup :=
    coherent.sequences.imp Nat.ne_of_lt
  have ofScopeNodup :
      ((scope.rows db).map ChannelHistoryRow.sequence).Nodup :=
    nodup.sublist (ofScope.map _)
  unfold channelHistoryPrune
  rw [isPrefix]
  refine ⟨⟨removed, ?_, isLeast⟩, ?_, List.filter_sublist⟩
  · have swapped := filter_not_mem_take ofScopeNodup removed
    rw [← swapped]
    unfold ChannelHistoryRetentionScope.rows ChannelHistoryDb.deleteWhere
    dsimp only
    rw [List.filter_filter, List.filter_filter]
    apply List.filter_congr
    intro row _
    exact Bool.and_comm _ _
  · unfold ChannelHistoryDb.deleteWhere
    dsimp only
    rw [List.filter_filter]
    apply List.filter_congr
    intro row member
    by_cases covered : scope.covers row.room = true
    · simp [covered]
    · have spared : row.sequence ∉
          ((scope.rows db).take removed).map
            ChannelHistoryRow.sequence := by
        intro named
        obtain ⟨other, taken, same⟩ := List.mem_map.mp named
        have inScope := List.mem_of_mem_take taken
        have isRow : other = row :=
          List.inj_on_of_nodup_map nodup (ofScope.subset inScope) member same
        rw [isRow] at inScope
        exact covered (List.mem_filter.mp inScope).2
      simp only [decide_eq_false spared, Bool.not_false, Bool.and_true]

private theorem keeps_pruneChannelHistoryScope
    (scope : ChannelHistoryRetentionScope) (maxEvents maxPayloadBytes : Nat)
    {before : ChannelHistoryDb} (coherent : before.Coherent) :
    Tx.Keeps (fun db => db = before)
      (pruneChannelHistoryScope scope maxEvents maxPayloadBytes)
      (fun _ after => Prunes scope maxEvents maxPayloadBytes before after ∧
        after.Coherent) := by
  rw [pruneChannelHistoryScope]
  apply Tx.keeps_require_bind
  intro _
  apply Tx.keeps_require_bind
  intro _
  apply Tx.settles_query_bind
  intro db same
  subst same
  rw [coherent.channelHistoryUsage scope]
  dsimp only
  split
  · rename_i balanced
    rw [Bool.and_eq_true, decide_eq_true_eq, decide_eq_true_eq] at balanced
    apply Tx.settles_pure
    intro reached same
    subst same
    refine ⟨prunes_refl ⟨?_, ?_⟩, coherent⟩
    · omega
    · omega
  · apply Tx.settles_statement
    intro reached same
    subst same
    exact ⟨prunes_channelHistoryPrune scope maxEvents maxPayloadBytes
      coherent, coherent.deleteWhere _⟩

/-! ## Appending -/

/-- The tables after the batch was inserted. -/
def insertedEvents (identityId : String)
    (events : List NewChannelHistoryEvent) (recordedAtMs : Int)
    (db : ChannelHistoryDb) : ChannelHistoryDb :=
  events.foldl
    (fun db event => ChannelHistoryDb.noteRoom identityId recordedAtMs event
      (ChannelHistoryDb.insertEvent identityId recordedAtMs event db).2)
    db

/-- The ceilings to which an append prunes, in turn. -/
def ceilings (retention : ChannelHistoryRetentionPolicy)
    (identityId : String) (events : List NewChannelHistoryEvent) :
    List (ChannelHistoryRetentionScope × Nat × Nat) :=
  (touchedRooms identityId events).map
      (fun room => (.room room, retention.maxEventsPerRoom,
        retention.maxPayloadBytesPerRoom)) ++
    [(.identity identityId, retention.maxEventsPerIdentity,
        retention.maxPayloadBytesPerIdentity),
      (.global, retention.maxEventsGlobal, retention.maxPayloadBytesGlobal)]

/-- One prune after the other. -/
def PrunesInTurn : List (ChannelHistoryRetentionScope × Nat × Nat) →
    ChannelHistoryDb → ChannelHistoryDb → Prop
  | [], before, after => after = before
  | (scope, maxEvents, maxPayloadBytes) :: rest, before, after =>
      ∃ pruned, Prunes scope maxEvents maxPayloadBytes before pruned ∧
        PrunesInTurn rest pruned after

/-- All that an append of a batch does: the batch is inserted, what has
expired goes, and each ceiling is pruned to. -/
def Appended (retention : ChannelHistoryRetentionPolicy)
    (identityId : String) (events : List NewChannelHistoryEvent)
    (recordedAtMs : Int) (before after : ChannelHistoryDb) : Prop :=
  PrunesInTurn (ceilings retention identityId events)
    (ChannelHistoryDb.deleteWhere
      (fun row => row.recordedAtMs <
        historyCutoff recordedAtMs retention.maxAgeMs)
      (insertedEvents identityId events recordedAtMs before)).2
    after

theorem prunesInTurn_append (first second : List (ChannelHistoryRetentionScope × Nat × Nat))
    {before middle after : ChannelHistoryDb} (earlier : PrunesInTurn first before middle)
    (later : PrunesInTurn second middle after) :
    PrunesInTurn (first ++ second) before after := by
  induction first generalizing before with
  | nil =>
      have same : middle = before :=
        earlier
      exact same ▸ later
  | cons ceiling rest ih =>
      obtain ⟨pruned, prunes, others⟩ := earlier
      exact ⟨pruned, prunes, ih others⟩

theorem sublist_of_prunesInTurn {turns : List (ChannelHistoryRetentionScope × Nat × Nat)}
    {before after : ChannelHistoryDb} (inTurn : PrunesInTurn turns before after) :
    after.rows.Sublist before.rows := by
  induction turns generalizing before with
  | nil =>
      have same : after = before :=
        inTurn
      exact same ▸ List.Sublist.refl _
  | cons ceiling rest ih =>
      obtain ⟨pruned, prunes, others⟩ := inTurn
      exact (ih others).trans prunes.order

/-- After all prunes every scope is within its ceilings. -/
theorem fits_of_prunesInTurn {turns : List (ChannelHistoryRetentionScope × Nat × Nat)}
    {before after : ChannelHistoryDb} (inTurn : PrunesInTurn turns before after) :
    ∀ ceiling ∈ turns, Fits ChannelHistoryRow.payloadBytes ceiling.2.1
      ceiling.2.2 (ceiling.1.rows after) := by
  induction turns generalizing before with
  | nil =>
      intro ceiling member
      cases member
  | cons first rest ih =>
      obtain ⟨pruned, prunes, others⟩ := inTurn
      intro ceiling member
      rcases List.mem_cons.mp member with isFirst | later
      · rw [isFirst]
        exact prunes.fits.sublist ((sublist_of_prunesInTurn others).filter _)
      · exact ih others ceiling later

private theorem keeps_appendEvents (identityId : String)
    (recordedAtMs : Int) (before : ChannelHistoryDb)
    (coherent : before.Coherent) (events : List NewChannelHistoryEvent) :
    Tx.Keeps (fun db => db = before)
      (Tx.forEach (appendEvent identityId recordedAtMs) events.zipIdx)
      (fun _ after =>
        after = insertedEvents identityId events recordedAtMs before ∧
          after.Coherent) := by
  apply (Tx.settles_forEach
    (fun done _ db => db = insertedEvents identityId
      (done.map Prod.fst) recordedAtMs before ∧ db.Coherent)
    (fun done values entry => ?_) events.zipIdx).weaken
  · intro db same
    exact ⟨same, same ▸ coherent⟩
  · intro _ after held
    rw [List.zipIdx_map_fst] at held
    exact held
  · rw [appendEvent]
    apply Tx.settles_statement_bind
    intro db held
    apply Tx.settles_execute_bind
    intro inserted isInserted
    subst isInserted
    apply Tx.settles_pure
    intro reached isReached
    subst isReached
    refine ⟨?_, (held.2.insertEvent identityId recordedAtMs
      entry.1).noteRoom identityId recordedAtMs entry.1⟩
    rw [held.1, List.map_append, insertedEvents, insertedEvents, List.foldl_append]
    rfl

private theorem keeps_pruneRooms (rooms : List ChannelRoom)
    (maxEvents maxPayloadBytes : Nat) {before : ChannelHistoryDb} (coherent : before.Coherent) :
    Tx.Keeps (fun db => db = before)
      (Tx.forEach (fun room => pruneChannelHistoryScope (.room room)
        maxEvents maxPayloadBytes) rooms)
      (fun _ after =>
        PrunesInTurn (rooms.map fun room =>
          (.room room, maxEvents, maxPayloadBytes)) before after ∧
          after.Coherent) := by
  apply (Tx.settles_forEach
    (fun done _ db =>
      PrunesInTurn (done.map fun room =>
        (.room room, maxEvents, maxPayloadBytes)) before db ∧ db.Coherent)
    (fun done _ room => ?_) rooms).weaken
  · intro db same
    exact ⟨same, same ▸ coherent⟩
  · intro _ after held
    exact held
  · apply Tx.settles_of_tables
    intro db held
    apply (keeps_pruneChannelHistoryScope (.room room) maxEvents maxPayloadBytes held.2).weaken
    · intro _ same
      exact same
    · intro _ after pruned
      refine ⟨?_, pruned.2⟩
      rw [List.map_append]
      exact prunesInTurn_append _ _ held.1 ⟨after, pruned.1, rfl⟩

private theorem keeps_appendProgram (identityId : String)
    (events : List NewChannelHistoryEvent) (recordedAtMs : Int)
    (retention : ChannelHistoryRetentionPolicy) {before : ChannelHistoryDb}
    (coherent : before.Coherent) :
    Tx.Keeps (fun db => db = before)
      (appendProgram identityId events recordedAtMs retention)
      (fun _ after =>
        Appended retention identityId events recordedAtMs before after ∧
          after.Coherent) := by
  rw [appendProgram]
  apply (keeps_appendEvents identityId recordedAtMs before coherent events).bind
  intro appended
  apply Tx.settles_statement_bind
  intro inserted ⟨isInserted, isCoherent⟩
  subst isInserted
  apply (keeps_pruneRooms (touchedRooms identityId events)
    retention.maxEventsPerRoom retention.maxPayloadBytesPerRoom
    (isCoherent.deleteWhere _)).bind
  intro byRoom
  apply Tx.settles_of_tables
  intro roomsPruned ⟨roomsInTurn, roomsCoherent⟩
  apply (keeps_pruneChannelHistoryScope (.identity identityId)
    retention.maxEventsPerIdentity retention.maxPayloadBytesPerIdentity
    roomsCoherent).bind
  intro byIdentity
  apply Tx.settles_of_tables
  intro identityPruned ⟨identityPrunes, identityCoherent⟩
  apply (keeps_pruneChannelHistoryScope .global retention.maxEventsGlobal
    retention.maxPayloadBytesGlobal identityCoherent).bind
  intro byAll
  apply Tx.settles_query_bind
  intro after ⟨globalPrunes, isAfter⟩
  apply Tx.settles_pure
  intro reached same
  subst same
  refine ⟨?_, isAfter⟩
  exact prunesInTurn_append _ _ roomsInTurn
    ⟨identityPruned, identityPrunes, reached, globalPrunes, rfl⟩

/-! ## Scopes that an append leaves alone -/

private theorem rows_insertEvent {scope : ChannelHistoryRetentionScope}
    {identityId : String} {event : NewChannelHistoryEvent} (uncovered : scope.covers
      (identityId, event.hubDestinationHash, event.roomName) = false)
    (recordedAtMs : Int) (db : ChannelHistoryDb) :
    scope.rows
        (ChannelHistoryDb.insertEvent identityId recordedAtMs event db).2 =
      scope.rows db := by
  unfold ChannelHistoryDb.insertEvent ChannelHistoryRetentionScope.rows
  dsimp only
  split
  · rfl
  · rw [List.filter_append, List.filter_cons]
    have skipped : scope.covers (ChannelHistoryRow.room
        { sequence := db.sequencesDrawn + 1
          identityId := identityId
          event := event
          recordedAtMs := recordedAtMs }) = false :=
      uncovered
    rw [skipped]
    simp

private theorem rows_insertedEvents {scope : ChannelHistoryRetentionScope}
    {identityId : String} {events : List NewChannelHistoryEvent}
    (uncovered : ∀ event ∈ events, scope.covers
      (identityId, event.hubDestinationHash, event.roomName) = false)
    (recordedAtMs : Int) (db : ChannelHistoryDb) :
    scope.rows (insertedEvents identityId events recordedAtMs db) =
      scope.rows db := by
  induction events generalizing db with
  | nil => rfl
  | cons event rest ih =>
      have first : scope.rows (ChannelHistoryDb.noteRoom identityId
          recordedAtMs event (ChannelHistoryDb.insertEvent identityId
            recordedAtMs event db).2) = scope.rows db := by
        rw [ChannelHistoryRetentionScope.rows, ChannelHistoryDb.rows_noteRoom]
        exact rows_insertEvent (uncovered event List.mem_cons_self) recordedAtMs db
      exact (ih (fun other member =>
        uncovered other (List.mem_cons_of_mem event member)) _).trans first

theorem mem_touchedRooms (identityId : String)
    (events : List NewChannelHistoryEvent) (room : ChannelRoom) :
    room ∈ touchedRooms identityId events ↔
      ∃ event ∈ events,
        (identityId, event.hubDestinationHash, event.roomName) = room := by
  simp [touchedRooms]

/-- A scope without an event of the batch keeps at most the rows it had. -/
private theorem sublist_of_appended
    {retention : ChannelHistoryRetentionPolicy} {identityId : String}
    {events : List NewChannelHistoryEvent} {recordedAtMs : Int}
    {before after : ChannelHistoryDb}
    (appended : Appended retention identityId events recordedAtMs before after)
    {scope : ChannelHistoryRetentionScope} (uncovered : ∀ event ∈ events, scope.covers
      (identityId, event.hubDestinationHash, event.roomName) = false) :
    (scope.rows after).Sublist (scope.rows before) := by
  rw [← rows_insertedEvents uncovered recordedAtMs before]
  exact ((sublist_of_prunesInTurn appended).trans List.filter_sublist).filter _

/-! ## Runs -/

namespace ChannelHistoryDb

/-- Every room, every identity and the whole table are within their
ceilings. -/
structure Within (retention : ChannelHistoryRetentionPolicy)
    (db : ChannelHistoryDb) : Prop where
  rooms : ∀ room, Fits ChannelHistoryRow.payloadBytes
    retention.maxEventsPerRoom retention.maxPayloadBytesPerRoom
    (ChannelHistoryRetentionScope.rows (.room room) db)
  identities : ∀ identityId, Fits ChannelHistoryRow.payloadBytes
    retention.maxEventsPerIdentity retention.maxPayloadBytesPerIdentity
    (ChannelHistoryRetentionScope.rows (.identity identityId) db)
  all : Fits ChannelHistoryRow.payloadBytes retention.maxEventsGlobal
    retention.maxPayloadBytesGlobal
    (ChannelHistoryRetentionScope.rows .global db)

variable {retention : ChannelHistoryRetentionPolicy}

theorem within_fresh : fresh.Within retention where
  rooms _ := ⟨Nat.zero_le _, Nat.zero_le _⟩
  identities _ := ⟨Nat.zero_le _, Nat.zero_le _⟩
  all := ⟨Nat.zero_le _, Nat.zero_le _⟩

theorem Within.sublist {db fewer : ChannelHistoryDb}
    (within : db.Within retention) (sublist : fewer.rows.Sublist db.rows) :
    fewer.Within retention where
  rooms room := (within.rooms room).sublist (sublist.filter _)
  identities identityId :=
    (within.identities identityId).sublist (sublist.filter _)
  all := within.all.sublist (sublist.filter _)

/-- What an append does not prune it does not add to. -/
theorem Within.append {identityId : String}
    {events : List NewChannelHistoryEvent} {recordedAtMs : Int}
    {before after : ChannelHistoryDb} (within : before.Within retention)
    (appended : Appended retention identityId events recordedAtMs before
      after) : after.Within retention := by
  have fits := fits_of_prunesInTurn appended
  refine ⟨fun room => ?_, fun owner => ?_, ?_⟩
  · by_cases touched : room ∈ touchedRooms identityId events
    · exact fits (.room room, _, _) (List.mem_append_left _ (List.mem_map_of_mem touched))
    · apply (within.rooms room).sublist (sublist_of_appended appended ?_)
      intro event member
      apply decide_eq_false
      intro same
      exact touched ((mem_touchedRooms _ _ _).mpr ⟨event, member, same⟩)
  · by_cases isOwn : identityId = owner
    · subst isOwn
      exact fits (.identity identityId, _, _) (List.mem_append_right _ List.mem_cons_self)
    · apply (within.identities owner).sublist
        (sublist_of_appended appended ?_)
      intro event _
      exact decide_eq_false isOwn
  · exact fits (.global, _, _) (List.mem_append_right _
      (List.mem_cons_of_mem _ List.mem_cons_self))

theorem transact_cases {Value : Type} {db : ChannelHistoryDb}
    {program : HistoryTx Value} {answer : Value → ChannelHistoryAnswer}
    {ends : ChannelHistoryDb → Prop} (call : ChannelHistoryCall)
    (keeps : Tx.Keeps (fun start => start = db) program
      (fun _ after => ends after)) :
    (∃ value, (db.transact call program answer).result = .ok value ∧
      ends (db.transact call program answer).tables) ∨
    ((db.transact call program answer).tables = db ∧
      ∃ failure,
        (db.transact call program answer).result = .error failure) := by
  have whole : Tx.Keeps (fun start => start = db)
      (do
        let value ← program
        pure (answer value))
      (fun _ after => ends after) :=
    keeps.bind fun _ => Tx.settles_pure fun _ held => held
  refine Tx.immediate_certain whole (call.commitFails.getD "") ?_ rfl
  dsimp only
  split
  · exact CommitOutcome.noConfusion
  · exact CommitOutcome.noConfusion

variable [UnicodeTables]

/-- An append does all that it should, or it fails and does nothing. -/
theorem append_cases {db : ChannelHistoryDb} (coherent : db.Coherent)
    (call : ChannelHistoryCall) (identityId : String)
    (events : List NewChannelHistoryEvent) (recordedAtMs : Int) :
    let performed := db.perform retention call (.append identityId events recordedAtMs)
    (∃ answer, performed.result = .ok answer ∧
      (events = [] ∧ performed.tables = db ∨
        Appended retention identityId events recordedAtMs db
            performed.tables ∧
          performed.tables.Coherent)) ∨
    (performed.tables = db ∧
      ∃ failure, performed.result = .error failure) := by
  unfold perform appendChannelHistoryEvents
  dsimp only
  split
  · exact Or.inr ⟨rfl, _, rfl⟩
  · split
    · exact Or.inr ⟨rfl, _, rfl⟩
    · split
      · rename_i empty
        exact Or.inl ⟨_, rfl, Or.inl ⟨List.isEmpty_iff.mp empty, rfl⟩⟩
      · split
        · exact Or.inr ⟨rfl, _, rfl⟩
        · rcases transact_cases call (keeps_appendProgram identityId events
            recordedAtMs retention coherent) with
            ⟨value, worked, ends⟩ | failed
          · exact Or.inl ⟨value, worked, Or.inr ends⟩
          · exact Or.inr failed

/-- The tables a run passes through. -/
structure Sound (retention : ChannelHistoryRetentionPolicy)
    (db : ChannelHistoryDb) : Prop where
  coherent : db.Coherent
  within : db.Within retention

omit [UnicodeTables] in
theorem Sound.deleteWhere {db : ChannelHistoryDb}
    (sound : db.Sound retention) (selects : ChannelHistoryRow → Bool)
    (call : ChannelHistoryCall) :
    (db.transact call (Tx.statement (deleteWhere selects))
      .deleted).tables.Sound retention := by
  have keeps : Tx.Keeps (fun start => start = db)
      (Tx.statement (ChannelHistoryDb.deleteWhere selects) : HistoryTx Nat)
      (fun _ after => after.Sound retention) := by
    apply Tx.settles_statement
    intro start same
    subst same
    exact ⟨sound.coherent.deleteWhere selects, sound.within.sublist List.filter_sublist⟩
  rcases transact_cases call keeps with ⟨value, -, ends⟩ | ⟨same, -⟩
  · exact ends
  · rw [same]
    exact sound

theorem Sound.step {db : ChannelHistoryDb} (sound : db.Sound retention)
    (input : ChannelHistoryCall × ChannelHistoryOp) :
    (db.step retention input).Sound retention := by
  obtain ⟨call, op⟩ := input
  cases op with
  | append identityId events recordedAtMs =>
      rcases append_cases sound.coherent call identityId events
          recordedAtMs with
        ⟨answer, -, ⟨-, same⟩ | ⟨appended, coherent⟩⟩ | ⟨same, -⟩
      · rw [ChannelHistoryDb.step, same]
        exact sound
      · exact ⟨coherent, sound.within.append appended⟩
      · rw [ChannelHistoryDb.step, same]
        exact sound
  | pruneExpired nowMs => exact sound.deleteWhere _ call
  | clearRoom identityId hubDestinationHash roomName =>
      unfold ChannelHistoryDb.step perform
      dsimp only
      split
      · exact sound
      · exact sound.deleteWhere _ call
  | clearIdentity identityId =>
      unfold ChannelHistoryDb.step perform
      dsimp only
      split
      · exact sound
      · exact sound.deleteWhere _ call

/-- Over every run the usage of each room is the number and the size of its
rows, no two rows share identity, hub, room and event id, and every room,
every identity and the whole table are within their ceilings.  An append of a
batch prunes each scope to the smallest prefix; one that fails changes
nothing. -/
theorem channelHistory_run (retention : ChannelHistoryRetentionPolicy)
    (inputs : List (ChannelHistoryCall × ChannelHistoryOp)) :
    let db := runFrom (step retention) fresh inputs
    (∀ room,
      let kept := db.rows.filter fun row => row.room = room
      db.roomUsage.lookup room =
        if kept = [] then none
        else
          some
            { count := kept.length
              size :=
                ((kept.map ChannelHistoryRow.payloadBytes).sum : Nat) }) ∧
    (db.rows.map ChannelHistoryRow.key).Nodup ∧
    db.Within retention ∧
    ∀ call identityId events recordedAtMs,
      let performed :=
        db.perform retention call (.append identityId events recordedAtMs)
      (∀ answer, performed.result = .ok answer →
        performed.tables.Within retention ∧
          (events ≠ [] → Appended retention identityId events recordedAtMs
            db performed.tables)) ∧
      ∀ failure, performed.result = .error failure →
        performed.tables = db := by
  intro db
  have sound : db.Sound retention :=
    invariant_of_forall_step (fun _ input held => held.step input) inputs
      ⟨coherent_fresh, within_fresh⟩
  refine ⟨sound.coherent.usage, sound.coherent.keys, sound.within, ?_⟩
  intro call identityId events recordedAtMs performed
  have kept : performed.tables.Sound retention :=
    sound.step (call, .append identityId events recordedAtMs)
  rcases append_cases sound.coherent call identityId events recordedAtMs with
    ⟨answer, worked, outcome⟩ | ⟨same, failure, failed⟩
  · refine ⟨fun other answered => ⟨kept.within, fun some_given => ?_⟩,
      fun failure failed => ?_⟩
    · rcases outcome with ⟨empty, -⟩ | ⟨appended, -⟩
      · exact (some_given empty).elim
      · exact appended
    · rw [worked] at failed
      cases failed
  · refine ⟨fun other answered => ?_, fun _ _ => same⟩
    rw [failed] at answered
    cases answered

end ChannelHistoryDb

/-- Two identities in one room store an event of it twice. -/
theorem channelHistory_twoIdentities :
    letI := asciiTables
    let event : NewChannelHistoryEvent :=
      { hubDestinationHash := "00000000000000000000000000000000"
        roomName := "lobby"
        eventId := "e1"
        kind := .message
        timestampMs := 0
        sourceHash := none
        nickname := none
        text := "hello"
        ours := false
        mentioned := false }
    let call : ChannelHistoryCall :=
      { connection := none, fares := fun _ => none, commitFails := none }
    let db := runFrom (ChannelHistoryDb.step channelHistoryRetention)
      ChannelHistoryDb.fresh
      [(call, .append "11111111111111111111111111111111" [event] 0),
        (call, .append "22222222222222222222222222222222" [event] 0)]
    ¬ (db.rows.map fun row => (row.event.hubDestinationHash,
      row.event.roomName, row.event.eventId)).Nodup := by
  decide +kernel

end Ratspeak
