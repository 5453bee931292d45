import Ratspeak.Database.Quotas
import Ratspeak.Database.SuppressionRuns

/-!
# The stored records of a ledger

The columns of every row that is ever stored say what its record does.
Storing a snapshot therefore finds each row that the ledger no longer has, and
leaves the records of the ledger and no others that have not expired.  The
rows of other nodes and identities stay until they expire.
-/

namespace Ratspeak

open Library Library.MessagePack Library.Overlay

variable {Value : Type} {rmpv : Rmpv Value}

/-! ## Whatever was stored -/

def SuppressionRecord.key (record : SuppressionRecord) : SuppressionKey :=
  (hexEncode record.scope.identity.val, record.scope.node, record.scope.transientId)

/-- The columns of a row are those of the record that it holds. -/
def SuppressionRow.Consistent (rmpv : Rmpv Value) (row : SuppressionRow) :
    Prop :=
  ∀ record, decodeSuppression rmpv row.encoded = .ok record → row.key = record.key

def AdmissionDb.Consistent (rmpv : Rmpv Value) (db : AdmissionDb) : Prop :=
  ∀ key row, db.suppression.lookup key = some row → row.key = key ∧ row.Consistent rmpv

theorem AdmissionDb.Consistent.mono {smaller larger : AdmissionDb}
    (consistent : larger.Consistent rmpv)
    (less : ∀ key row, smaller.suppression.lookup key = some row →
      larger.suppression.lookup key = some row) :
    smaller.Consistent rmpv :=
  fun key row found => consistent key row (less key row found)

/-- A batch of consistent rows, whether it succeeds or not. -/
theorem meets_consistent_batch (turns : PersistTurns)
    {rows : List SuppressionRow} (remove : List SuppressionKey)
    (sound : ∀ row ∈ rows, row.Consistent rmpv) :
    Program.Meets (fun state => state.db.Consistent rmpv)
      (writeSuppression turns rows remove)
      (fun _ state => state.db.Consistent rmpv)
      (fun _ state => state.db.Consistent rmpv) := by
  rw [writeSuppression]
  apply Program.meets_get_bind
  intro state consistent
  dsimp only
  have reached : (state.db.perform (turns.call state.turn)
      (.writeSuppression rows remove
        (turns.now state.turn))).tables.Consistent rmpv := by
    rcases wrote_perform state.db (turns.call state.turn) rows remove
        (turns.now state.turn) with wrote | ⟨same, -⟩
    · intro key row found
      rcases wrote.old key row found with kept | ⟨isNew, isKey⟩
      · exact consistent key row kept
      · exact ⟨isKey, sound row isNew⟩
    · rw [same]
      exact consistent
  have moves : Program.Meets (fun start => start = state)
      (modify fun _ =>
        { db := (state.db.perform (turns.call state.turn)
            (.writeSuppression rows remove (turns.now state.turn))).tables
          turn := state.turn + 1 } : PersistProgram PUnit)
      (fun _ state => state.db.Consistent rmpv)
      (fun _ state => state.db.Consistent rmpv) :=
    Program.meets_modify fun _ _ => reached
  apply moves.bind
  intro _
  exact (meets_ofResult _ fun _ _ held => held).weaken (fun _ held => held)
    (fun _ _ held => held.2) (fun _ _ held => held)

theorem meets_consistent_removals (turns : PersistTurns)
    (batches : List (List SuppressionKey)) :
    Program.Meets (fun state => state.db.Consistent rmpv)
      (writeRemovals turns batches)
      (fun _ state => state.db.Consistent rmpv)
      (fun _ state => state.db.Consistent rmpv) := by
  induction batches with
  | nil => exact Program.meets_pure fun _ held => held
  | cons batch rest ih =>
      have noRows : ∀ row ∈ ([] : List SuppressionRow),
          row.Consistent rmpv := by
        intro row among
        cases among
      apply (meets_consistent_batch turns batch noRows).bind
      intro _
      exact ih

theorem consistent_suppressionRow (lawful : rmpv.Lawful)
    {identity : Bytes 16} {record : SuppressionRecord}
    (own : record.scope.identity = identity) {encoded : List UInt8}
    (encodes : encodeSuppression rmpv record = .ok encoded) :
    (suppressionRow (hexEncode identity.val) record encoded).Consistent
      rmpv := by
  intro read decoded
  obtain ⟨other, alsoEncodes, -, reads⟩ :=
    encodeSuppression_spec lawful record
  rw [encodes] at alsoEncodes
  cases alsoEncodes
  obtain ⟨-, same⟩ := (reads read).mp decoded
  rw [same, ← own]
  rfl

theorem meets_consistent_records (lawful : rmpv.Lawful)
    (turns : PersistTurns) {identity : Bytes 16} {records : List SuppressionRecord}
    (own : ∀ record ∈ records, record.scope.identity = identity)
    {batch : List SuppressionRow} (sound : ∀ row ∈ batch, row.Consistent rmpv) :
    Program.Meets (fun state => state.db.Consistent rmpv)
      (writeRecords rmpv turns (hexEncode identity.val) batch records)
      (fun _ state => state.db.Consistent rmpv)
      (fun _ state => state.db.Consistent rmpv) := by
  induction records generalizing batch with
  | nil =>
      rw [writeRecords]
      split
      · exact Program.meets_pure fun _ held => held
      · apply (meets_consistent_batch turns [] sound).bind
        intro _
        exact Program.meets_pure fun _ held => held
  | cons record rest ih =>
      rw [writeRecords]
      have others : ∀ other ∈ rest, other.scope.identity = identity :=
        fun other among => own other (List.mem_cons_of_mem _ among)
      apply (meets_ofResult (encodeSuppression rmpv record) fun _ _ held => held).bind
      intro encoded
      apply Program.meets_of_state
      intro state both
      obtain ⟨encodes, consistent⟩ := both
      have grown : ∀ row ∈ batch ++
          [suppressionRow (hexEncode identity.val) record encoded],
          row.Consistent rmpv := by
        intro row among
        rcases List.mem_append.mp among with earlier | isNew
        · exact sound row earlier
        · rw [List.mem_singleton.mp isNew]
          exact consistent_suppressionRow lawful (own record List.mem_cons_self) encodes
      dsimp only
      split
      · have noRows : ∀ row ∈ ([] : List SuppressionRow),
            row.Consistent rmpv := by
          intro row among
          cases among
        apply ((meets_consistent_batch turns [] grown).starting consistent).bind
        intro _
        exact ih others noRows
      · exact (ih others grown).starting consistent

/-- Storing a snapshot keeps the rows consistent, also where it fails half
way. -/
theorem AdmissionDb.Consistent.persist (lawful : rmpv.Lawful)
    {db : AdmissionDb} (consistent : db.Consistent rmpv)
    (turns : PersistTurns) (snapshot : DownloadSuppressionSnapshot) :
    (persistSuppression rmpv turns snapshot db).2.db.Consistent rmpv := by
  have own : ∀ record ∈ snapshotRecords snapshot,
      record.scope.identity = snapshot.identity := by
    intro record among
    have passes := (List.mem_filter.mp among).2
    rw [Bool.and_eq_true, decide_eq_true_eq] at passes
    exact passes.1
  have noRows : ∀ row ∈ ([] : List SuppressionRow),
      row.Consistent rmpv := by
    intro row among
    cases among
  have keeps : Program.Meets (fun state => state.db.Consistent rmpv)
      (persistProgram rmpv turns snapshot)
      (fun _ state => state.db.Consistent rmpv)
      (fun _ state => state.db.Consistent rmpv) := by
    rw [persistProgram]
    apply Program.meets_get_bind
    intro state held
    apply ((meets_ofResult _ fun _ _ held => held).starting held).bind
    intro rows
    apply Program.Meets.bind ((meets_ofResult _ fun _ _ held =>
      held).weaken (fun _ held => held.2) (fun _ _ held => held.2)
        (fun _ _ held => held))
    intro old
    apply (meets_consistent_removals turns _).bind
    intro _
    exact meets_consistent_records lawful turns own noRows
  have ends := keeps { db := db, turn := 0 } consistent
  rw [persistSuppression]
  rcases ran : (persistProgram rmpv turns snapshot).exec
      { db := db, turn := 0 } with ⟨result, reached⟩
  rw [ran] at ends
  cases result with
  | ok value => exact ends
  | error failure => exact ends

/-- The databases that come about: snapshots are stored, rows of a node are
cleared, and all else happens that the ledger of admissions allows. -/
inductive Stored (rmpv : Rmpv Value) : AdmissionDb → Prop where
  | fresh (app : AppTables) : Stored rmpv (.fresh app)
  | persist (turns : PersistTurns)
      (snapshot : DownloadSuppressionSnapshot) {db : AdmissionDb}
      (earlier : Stored rmpv db) :
      Stored rmpv (persistSuppression rmpv turns snapshot db).2.db
  | clear (call : AdmissionDbCall) (identity : String) (node : NodeHash)
      {db : AdmissionDb} (earlier : Stored rmpv db) :
      Stored rmpv
        (Tx.immediate call.circumstances (.commitUncertain call.reason)
          (clearSuppressionProgram identity node) db).tables
  | perform (call : AdmissionDbCall) (op : AdmissionDbOp)
      (noBatch : ∀ rows remove now, op ≠ .writeSuppression rows remove now)
      {db : AdmissionDb} (earlier : Stored rmpv db) :
      Stored rmpv (db.perform call op).tables

theorem Stored.consistent (lawful : rmpv.Lawful) {db : AdmissionDb}
    (stored : Stored rmpv db) : db.Consistent rmpv := by
  induction stored with
  | fresh app =>
      intro key row found
      cases found
  | persist turns snapshot earlier ih => exact ih.persist lawful turns snapshot
  | @clear call identity node db earlier ih =>
      have keeps : Tx.Keeps (fun start => start.Consistent rmpv)
          (clearSuppressionProgram identity node)
          (fun _ start => start.Consistent rmpv) := by
        apply Tx.settles_execute
        intro start held
        apply held.mono
        intro key row found
        rcases lookup_deleteSome 256
            (fun (key : SuppressionKey) (_ : SuppressionRow) =>
              key.1 = identity && key.2.1 = node)
            start.suppression key with same | ⟨gone, -⟩
        · rw [← same]
          exact found
        · rw [gone] at found
          cases found
      exact Tx.immediate_keeps keeps call.circumstances _ ih
  | @perform call op noBatch db earlier ih =>
      rcases AdmissionDb.atomic_perform db call op with
        ⟨answer, -, lands, -⟩ | ⟨-, same, -⟩
      · exact ih.mono fun key row found =>
          lands.suppression noBatch found
      · rw [same]
        exact ih

/-! ## What a snapshot leaves -/

/-- A snapshot that was stored, in full. -/
theorem persistSuppression_ok {turns : PersistTurns}
    {snapshot : DownloadSuppressionSnapshot} {db : AdmissionDb} {after : Persisting}
    (succeeded : persistSuppression rmpv turns snapshot db = (.ok (), after)) :
    ∃ rows old written,
      suppressionRows turns.rowsFail db (hexEncode snapshot.identity.val)
        turns.rowsNow = .ok rows ∧
      rows.mapM (decodeSuppression rmpv) = .ok old ∧
      List.Forall₂ (IsRowOf rmpv (hexEncode snapshot.identity.val))
        (snapshotRecords snapshot) written ∧
      Persisted turns written (removedRecords snapshot old) db after := by
  have meets : Program.Meets
      (fun start => start = { db := db, turn := 0 })
      (persistProgram rmpv turns snapshot)
      (fun _ reached => ∃ rows old written,
        suppressionRows turns.rowsFail db (hexEncode snapshot.identity.val)
          turns.rowsNow = .ok rows ∧
        rows.mapM (decodeSuppression rmpv) = .ok old ∧
        List.Forall₂ (IsRowOf rmpv (hexEncode snapshot.identity.val))
          (snapshotRecords snapshot) written ∧
        Persisted turns written (removedRecords snapshot old) db reached)
      (fun _ _ => True) := by
    rw [persistProgram]
    apply Program.meets_get_bind
    intro state same
    subst same
    apply (meets_ofResult _ fun _ _ _ => trivial).bind
    intro rows
    have decodes := @meets_ofResult _
      (fun start =>
        suppressionRows turns.rowsFail db (hexEncode snapshot.identity.val)
          turns.rowsNow = .ok rows ∧ start = { db := db, turn := 0 })
      (fun _ _ => True)
      (rows.mapM (decodeSuppression rmpv)) (fun _ _ _ => trivial)
    apply decodes.bind
    intro old
    apply Program.meets_of_state
    intro state ⟨decoded, isRows, same⟩
    have starts : Persisted turns [] [] db state := by
      rw [same]
      exact persisted_start turns db
    have removes := (meets_writeRemovals (chunksOf 256
      (removedRecords snapshot old).length
      (removedRecords snapshot old))).starting starts
    rw [flatten_chunksOf (by decide) _ _ (Nat.le_refl _),
      List.nil_append] at removes
    apply removes.bind
    intro _
    apply (meets_writeRecords (snapshotRecords snapshot) []).weaken
      (fun _ held => held) _ (fun _ _ held => held)
    intro _ reached ⟨written, areRows, persisted⟩
    exact ⟨rows, old, written, isRows, decoded, areRows, persisted⟩
  exact meets.ok rfl succeeded

theorem mem_of_mapM_ok {Failure Input Output : Type}
    {body : Input → Except Failure Output} {inputs : List Input}
    {outputs : List Output} (ran : inputs.mapM body = .ok outputs)
    {input : Input} (among : input ∈ inputs) :
    ∃ output ∈ outputs, body input = .ok output := by
  induction inputs generalizing outputs with
  | nil => cases among
  | cons first rest ih =>
      rw [List.mapM_cons] at ran
      obtain ⟨output, isOutput, ran⟩ := bind_eq_ok ran
      obtain ⟨others, areOthers, ran⟩ := bind_eq_ok ran
      cases ran
      rcases List.mem_cons.mp among with isFirst | later
      · rw [isFirst]
        exact ⟨output, List.mem_cons_self, isOutput⟩
      · obtain ⟨found, isAmong, isFound⟩ :=
          ih areOthers later
        exact ⟨found, List.mem_cons_of_mem _ isAmong, isFound⟩

/-- Every selected row is read. -/
theorem mem_suppressionRows {fails : Option AdmissionDbError}
    {db : AdmissionDb} {identity : String} {now : Nat} {rows : List (List UInt8)}
    (read : suppressionRows fails db identity now = .ok rows)
    {key : SuppressionKey} {row : SuppressionRow}
    (found : db.suppression.lookup key = some row) (own : key.1 = identity)
    (alive : now < row.expiresAt) : row.encoded ∈ rows := by
  have selected : (key, row) ∈ suppressionSelected db identity now := by
    rw [suppressionSelected, List.mem_filter, FiniteMap.mem_bindings_iff]
    exact ⟨found, by simpa using ⟨own, alive⟩⟩
  cases fails with
  | some failure => cases read
  | none =>
      rw [suppressionRows] at read
      obtain ⟨-, read⟩ := ok_of_unless read
      obtain ⟨few, read⟩ := ok_of_unless read
      cases read
      have sorted : (key, row) ∈ (suppressionSelected db identity
          now).insertionSort suppressionPrecedes :=
        (List.perm_insertionSort _ _).mem_iff.mpr selected
      rw [List.length_map, List.length_take] at few
      have all : ((suppressionSelected db identity now).insertionSort
          suppressionPrecedes).length ≤ 16385 := by
        omega
      rw [List.take_of_length_le all]
      exact List.mem_map_of_mem sorted

theorem SuppressionLedger.get_eq_some_iff {ledger : SuppressionLedger}
    {scope : AdmissionScope} {record : SuppressionRecord} :
    ledger.get scope = some record ↔
      record ∈ ledger.records ∧ record.scope = scope := by
  have scoped_of_found {other : SuppressionRecord}
      (found : ledger.get scope = some other) : other.scope = scope := by
    rw [get] at found
    simpa using List.find?_some found
  constructor
  · intro found
    exact ⟨List.mem_of_find?_eq_some found, scoped_of_found found⟩
  · intro ⟨among, own⟩
    have isSome : (ledger.get scope).isSome = true := by
      rw [get, List.find?_isSome]
      exact ⟨record, among, decide_eq_true own⟩
    obtain ⟨other, found⟩ := Option.isSome_iff_exists.mp isSome
    have otherScope := scoped_of_found found
    have same : other = record :=
      List.inj_on_of_nodup_map ledger.distinct
        (List.mem_of_find?_eq_some found) among
        (otherScope.trans own.symm)
    rw [found, same]

section Snapshot

variable {snapshot : DownloadSuppressionSnapshot}

theorem mem_snapshotRecords {record : SuppressionRecord} :
    record ∈ snapshotRecords snapshot ↔
      record ∈ snapshot.ledger.records ∧
        record.scope.identity = snapshot.identity ∧
        record.scope.node = snapshot.node := by
  rw [snapshotRecords, List.mem_filter, Bool.and_eq_true, decide_eq_true_eq,
    decide_eq_true_eq]

/-- The rows of the records have the keys of the records. -/
theorem keys_of_isRowOf {records : List SuppressionRecord} {written : List SuppressionRow}
    (own : ∀ record ∈ records, record.scope.identity = snapshot.identity)
    (areRows : List.Forall₂ (IsRowOf rmpv (hexEncode snapshot.identity.val)) records written) :
    written.map SuppressionRow.key = records.map SuppressionRecord.key := by
  induction areRows with
  | nil => rfl
  | @cons record row records written isRow _ ih =>
      obtain ⟨encoded, -, isRow⟩ := isRow
      rw [List.map_cons, List.map_cons,
        ih fun other among =>
          own other (List.mem_cons_of_mem _ among), isRow]
      have isOwn := own record List.mem_cons_self
      simp only [SuppressionRow.key, suppressionRow, SuppressionRecord.key, isOwn]

theorem SuppressionRecord.key_injective {first second : SuppressionRecord}
    (same : first.key = second.key) : first.scope = second.scope := by
  simp only [SuppressionRecord.key, Prod.mk.injEq] at same
  have identities : first.scope.identity = second.scope.identity :=
    Subtype.ext (hexEncode_injective same.1)
  rcases firstScope : first.scope with ⟨identity, node, transientId⟩
  rcases secondScope : second.scope with
    ⟨otherIdentity, otherNode, otherTransientId⟩
  rw [firstScope, secondScope] at identities same
  cases identities
  cases same.2.1
  cases same.2.2
  rfl

theorem nodup_snapshotRecords (snapshot : DownloadSuppressionSnapshot) :
    ((snapshotRecords snapshot).map SuppressionRecord.key).Nodup := by
  have apart := snapshot.ledger.distinct.sublist
    (List.filter_sublist.map SuppressionRecord.scope :
      List.Sublist ((snapshotRecords snapshot).map SuppressionRecord.scope)
        (snapshot.ledger.records.map SuppressionRecord.scope))
  apply List.Nodup.map_on
  · intro first isFirst second isSecond same
    exact List.inj_on_of_nodup_map apart isFirst isSecond (SuppressionRecord.key_injective same)
  · exact List.Nodup.of_map _ apart

theorem keys_rowWrites (time : Nat) (rows : List SuppressionRow) :
    (rowWrites time rows).map Prod.fst = rows.map SuppressionRow.key := by
  rw [rowWrites, List.map_map]
  rfl

theorem mem_of_forall₂ {Input Output : Type}
    {related : Input → Output → Prop} {inputs : List Input}
    {outputs : List Output} (all : List.Forall₂ related inputs outputs)
    {input : Input} (among : input ∈ inputs) :
    ∃ output ∈ outputs, related input output := by
  induction all with
  | nil => cases among
  | cons isRelated _ ih =>
      rcases List.mem_cons.mp among with isFirst | later
      · rw [isFirst]
        exact ⟨_, List.mem_cons_self, isRelated⟩
      · obtain ⟨found, isAmong, isFound⟩ := ih later
        exact ⟨found, List.mem_cons_of_mem _ isAmong, isFound⟩

variable {turns : PersistTurns} {db : AdmissionDb} {after : Persisting}
  {written : List SuppressionRow} {removed : List SuppressionKey}

/-- Any other key keeps the row that has not expired. -/
theorem unexpired_other (areRows : List.Forall₂
      (IsRowOf rmpv (hexEncode snapshot.identity.val))
      (snapshotRecords snapshot) written)
    {old : List SuppressionRecord}
    (persisted : Persisted turns written (removedRecords snapshot old) db after)
    {time : Nat} (later : ∀ turn < after.turn, turns.now turn ≤ time)
    {key : SuppressionKey} (other : (key.1, key.2.1) ≠
      (hexEncode snapshot.identity.val, snapshot.node)) :
    unexpired after.db time key = unexpired db time key := by
  have spared : key ∉ (rowWrites time written).map Prod.fst := by
    rw [keys_rowWrites, keys_of_isRowOf
      (fun record among => (mem_snapshotRecords.mp among).2.1) areRows]
    intro among
    obtain ⟨record, isRecord, isKey⟩ := List.mem_map.mp among
    obtain ⟨-, identity, node⟩ := mem_snapshotRecords.mp isRecord
    apply other
    rw [← isKey, SuppressionRecord.key, identity, node]
  have unremoved : key ∉ removedRecords snapshot old := by
    intro among
    obtain ⟨record, isRecord, isKey⟩ := List.mem_map.mp among
    have passes := (List.mem_filter.mp isRecord).2
    rw [Bool.and_eq_true, decide_eq_true_eq] at passes
    apply other
    rw [← isKey, passes.1]
  rw [persisted.view time later, overwrite_of_not_mem spared, clear, if_neg unremoved]

/-- A record of the ledger is stored. -/
theorem unexpired_stored (lawful : rmpv.Lawful) (areRows : List.Forall₂
      (IsRowOf rmpv (hexEncode snapshot.identity.val))
      (snapshotRecords snapshot) written)
    (persisted : Persisted turns written removed db after)
    {time : Nat} (later : ∀ turn < after.turn, turns.now turn ≤ time)
    {record : SuppressionRecord}
    (isRecord : record ∈ snapshotRecords snapshot) (valid : record.Valid) :
    (unexpired after.db time record.key).map
        (fun row => decodeSuppression rmpv row.encoded) =
      ((some record).filter fun record =>
        time < record.expiresAt.toNat).map .ok := by
  obtain ⟨row, isWritten, encoded, encodes, isRow⟩ :=
    mem_of_forall₂ areRows isRecord
  obtain ⟨other, alsoEncodes, -, reads⟩ :=
    encodeSuppression_spec lawful record
  rw [encodes] at alsoEncodes
  cases alsoEncodes
  have decodes : decodeSuppression rmpv encoded = .ok record :=
    (reads record).mpr ⟨valid, rfl⟩
  have isOwn := (mem_snapshotRecords.mp isRecord).2.1
  have isKey : row.key = record.key := by
    rw [isRow]
    simp only [SuppressionRow.key, suppressionRow, SuppressionRecord.key, isOwn]
  have distinct : ((rowWrites time written).map Prod.fst).Nodup := by
    rw [keys_rowWrites, keys_of_isRowOf
      (fun record among => (mem_snapshotRecords.mp among).2.1) areRows]
    exact nodup_snapshotRecords snapshot
  have isWrite : (record.key,
      (some row).filter fun row => time < row.expiresAt) ∈
        rowWrites time written := by
    rw [← isKey]
    exact List.mem_map_of_mem isWritten
  rw [persisted.view time later, overwrite_of_mem distinct isWrite]
  have expiry : row.expiresAt = record.expiresAt.toNat := by
    rw [isRow]
    rfl
  have bytes : row.encoded = encoded := by
    rw [isRow]
    rfl
  rw [Option.filter_some, Option.filter_some, expiry]
  by_cases alive : time < record.expiresAt.toNat
  · rw [if_pos (by simpa using alive), if_pos (by simpa using alive),
      Option.map_some, Option.map_some, bytes, decodes]
  · rw [if_neg (by simpa using alive), if_neg (by simpa using alive)]
    rfl

/-- What the ledger does not have is removed. -/
theorem unexpired_dropped {rows : List (List UInt8)} {old : List SuppressionRecord}
    (consistent : db.Consistent rmpv) (read : suppressionRows turns.rowsFail db
      (hexEncode snapshot.identity.val) turns.rowsNow = .ok rows)
    (decoded : rows.mapM (decodeSuppression rmpv) = .ok old) (areRows : List.Forall₂
      (IsRowOf rmpv (hexEncode snapshot.identity.val))
      (snapshotRecords snapshot) written)
    (persisted : Persisted turns written (removedRecords snapshot old) db after)
    {time : Nat} (since : turns.rowsNow ≤ time)
    (later : ∀ turn < after.turn, turns.now turn ≤ time) {transientId : TransientId}
    (absent : snapshot.ledger.get ⟨snapshot.identity, snapshot.node, transientId⟩ = none) :
    unexpired after.db time
      (hexEncode snapshot.identity.val, snapshot.node, transientId) =
        none := by
  have scope_of_key {record : SuppressionRecord}
      (isKey : record.key = (hexEncode snapshot.identity.val, snapshot.node, transientId)) :
      record.scope = ⟨snapshot.identity, snapshot.node, transientId⟩ := by
    simp only [SuppressionRecord.key, Prod.mk.injEq] at isKey
    rcases isScope : record.scope with ⟨identity, node, tid⟩
    rw [isScope] at isKey
    have same : identity = snapshot.identity :=
      Subtype.ext (hexEncode_injective isKey.1)
    have sameNode : node = snapshot.node := isKey.2.1
    have sameTid : tid = transientId := isKey.2.2
    rw [same, sameNode, sameTid]
  have spared : (hexEncode snapshot.identity.val, snapshot.node,
      transientId) ∉ (rowWrites time written).map Prod.fst := by
    rw [keys_rowWrites, keys_of_isRowOf
      (fun record among => (mem_snapshotRecords.mp among).2.1) areRows]
    intro among
    obtain ⟨record, isRecord, isKey⟩ := List.mem_map.mp among
    have there := SuppressionLedger.get_eq_some_iff.mpr
      ⟨(mem_snapshotRecords.mp isRecord).1, scope_of_key isKey⟩
    rw [absent] at there
    cases there
  rw [persisted.view time later, overwrite_of_not_mem spared, clear]
  split
  · rfl
  · rename_i unremoved
    cases found : unexpired db time
        (hexEncode snapshot.identity.val, snapshot.node, transientId) with
    | none => rfl
    | some row =>
        rw [unexpired, Option.filter_eq_some_iff] at found
        obtain ⟨found, alive⟩ := found
        have isAlive : time < row.expiresAt :=
          of_decide_eq_true alive
        have isRead := mem_suppressionRows read found rfl (Nat.lt_of_le_of_lt since isAlive)
        obtain ⟨record, isOld, isRecord⟩ := mem_of_mapM_ok decoded isRead
        obtain ⟨isKey, sound⟩ := consistent _ row found
        have isScope := scope_of_key ((sound record isRecord).symm.trans isKey)
        apply absurd _ unremoved
        have chosen : record ∈ old.filter fun record =>
            record.scope.node = snapshot.node &&
              (snapshot.ledger.get record.scope).isNone := by
          rw [List.mem_filter, isScope, absent]
          exact ⟨isOld, by simp⟩
        have listed := List.mem_map_of_mem
          (f := fun record : SuppressionRecord =>
            ((hexEncode snapshot.identity.val, record.scope.node,
              record.scope.transientId) : SuppressionKey)) chosen
        rw [isScope] at listed
        exact listed

end Snapshot

/-- A valid record takes at most 512 bytes and is read back, and whatever is
read is valid.  Once a snapshot has been stored, the rows of its node and
identity that have not expired are the records of its ledger that have not,
at any time that is not before it was stored; and those of any other node or
identity stay as they were until they expire. -/
theorem persistSuppression_exact (lawful : rmpv.Lawful) :
    (∀ record : SuppressionRecord, record.Valid →
      ∃ encoded, encodeSuppression rmpv record = .ok encoded ∧
        encoded.length ≤ 512 ∧
        decodeSuppression rmpv encoded = .ok record) ∧
    (∀ encoded record, decodeSuppression rmpv encoded = .ok record → record.Valid) ∧
    ∀ db, Stored rmpv db → ∀ turns snapshot after,
      (∀ record ∈ snapshot.ledger.records, record.Valid) →
      persistSuppression rmpv turns snapshot db = (.ok (), after) →
      after.db =
          { db with suppression := after.db.suppression } ∧
        ∀ time, turns.rowsNow ≤ time →
          (∀ turn < after.turn, turns.now turn ≤ time) →
          (∀ transientId,
            (unexpired after.db time
              (hexEncode snapshot.identity.val, snapshot.node,
                transientId)).map (fun row => decodeSuppression rmpv row.encoded) =
              ((snapshot.ledger.get ⟨snapshot.identity, snapshot.node,
                transientId⟩).filter fun record =>
                  time < record.expiresAt.toNat).map .ok) ∧
          ∀ key : SuppressionKey,
            (key.1, key.2.1) ≠ (hexEncode snapshot.identity.val, snapshot.node) →
            unexpired after.db time key = unexpired db time key := by
  refine ⟨fun record valid => ?_,
    fun _ _ decoded => valid_of_decodeSuppression decoded,
    fun db stored turns snapshot after valid succeeded => ?_⟩
  · obtain ⟨encoded, encodes, size, reads⟩ :=
      encodeSuppression_spec lawful record
    exact ⟨encoded, encodes, size, (reads record).mpr ⟨valid, rfl⟩⟩
  · have consistent := stored.consistent lawful
    obtain ⟨rows, old, written, read, decoded, areRows, persisted⟩ :=
      persistSuppression_ok succeeded
    refine ⟨persisted.frame, fun time since later =>
      ⟨fun transientId => ?_, fun key other =>
        unexpired_other areRows persisted later other⟩⟩
    cases known : snapshot.ledger.get ⟨snapshot.identity, snapshot.node, transientId⟩ with
    | none =>
        rw [unexpired_dropped consistent read decoded areRows persisted since later known]
        rfl
    | some record =>
        obtain ⟨among, isScope⟩ :=
          SuppressionLedger.get_eq_some_iff.mp known
        have isRecord : record ∈ snapshotRecords snapshot := by
          rw [mem_snapshotRecords, isScope]
          exact ⟨among, rfl, rfl⟩
        have stays := unexpired_stored lawful areRows persisted later isRecord
          (valid record among)
        rw [SuppressionRecord.key, isScope] at stays
        exact stays

/-! ## A library for short arrays -/

/-- A value of a library that writes only short arrays of scalars. -/
private inductive FlatValue where
  | scalar (member : Scalar)
  | array (items : List FlatValue)

private def FlatValue.member? : FlatValue → Option Scalar
  | .scalar member => some member
  | .array _ => none

private def flatRmpv : Rmpv FlatValue where
  array := .array
  unsigned number := .scalar (.unsigned number)
  binary bytes := .scalar (.binary bytes)
  asArray
    | .array items => some items
    | .scalar _ => none
  asU64
    | .scalar (.unsigned number) => some number
    | _ => none
  asSlice
    | .scalar (.binary bytes) => some bytes
    | _ => none
  writeValue
    | .array items => (okOr (items.mapM FlatValue.member?)
        "nested").map writeArray
    | .scalar member => .ok member.write
  readValue bytes :=
    (okOr (readArray bytes) "malformed").map fun read =>
      .array (read.1.map .scalar)
  encodedFieldValue bytes :=
    match readArray bytes with
    | some (_, []) => .ok ()
    | _ => .error "malformed"

private theorem members_map_scalar (members : List Scalar) :
    (members.map FlatValue.scalar).mapM FlatValue.member? =
      some members := by
  induction members with
  | nil => rfl
  | cons member rest ih =>
      rw [List.map_cons, List.mapM_cons, ih]
      rfl

private theorem lawful_flatRmpv : flatRmpv.Lawful where
  asArray_array _ := rfl
  asU64_unsigned _ := rfl
  asSlice_binary _ := rfl
  writes members few short := by
    have plain : members.map flatRmpv.ofScalar =
        members.map FlatValue.scalar := by
      apply List.map_congr_left
      intro member _
      cases member with
      | unsigned number => rfl
      | binary bytes => rfl
    have back := readArray_writeArray few fun member among =>
      (short member among).fits
    refine ⟨writeArray members, ?_, length_writeArray_le members, ?_, ?_⟩
    · rw [plain]
      change (okOr ((members.map FlatValue.scalar).mapM FlatValue.member?)
        "nested").map writeArray = _
      rw [members_map_scalar]
      rfl
    · change (match readArray (writeArray members) with
        | some (_, []) => (.ok () : Except String Unit)
        | _ => .error "malformed") = _
      rw [back]
    · rw [plain]
      change (okOr (readArray (writeArray members)) "malformed").map _ = _
      rw [back]
      rfl

private def failedDownload (node : UInt8) (expiresAt : UInt64) :
    SuppressionRecord where
  scope :=
    { identity := Bytes.replicate 16 1
      node := Bytes.replicate 16 node
      transientId := Bytes.replicate 32 7 }
  reason := .missingKey
  epochs := ⟨default, default, default, default⟩
  attempts := 1
  lastFailure := 10
  nextRetry := 20
  expiresAt := expiresAt

private def snapshotOf (node : UInt8) (expiresAt : UInt64) :
    DownloadSuppressionSnapshot where
  identity := Bytes.replicate 16 1
  node := Bytes.replicate 16 node
  ledger := ⟨[failedDownload node expiresAt], List.nodup_singleton _⟩

private def emptyTables : AppTables where
  messages := ∅
  reactions := []
  appSessions := ∅
  appActions := []
  hiddenConversations := []
  conversationThreads := []
  blockedContacts := []

private def calmAt (now : Nat) : PersistTurns where
  rowsFail := none
  rowsNow := now
  call := fun _ =>
    { busy := false
      reason := ""
      circumstances :=
        { connection := none, fares := fun _ => none, commit := .done } }
  now := fun _ => now

private def storedOnce : Persisting :=
  (persistSuppression flatRmpv (calmAt 30) (snapshotOf 2 100) (.fresh emptyTables)).2

private def storedTwice : Persisting :=
  (persistSuppression flatRmpv (calmAt 200) (snapshotOf 3 300) storedOnce.db).2

private theorem ok_of_isOk {result : Except AdmissionDbError PUnit}
    (succeeded : result.isOk = true) : result = .ok () := by
  cases result with
  | ok value => rfl
  | error failure => cases succeeded

private theorem storedOnce_ok :
    persistSuppression flatRmpv (calmAt 30) (snapshotOf 2 100)
      (.fresh emptyTables) = (.ok (), storedOnce) := by
  have succeeded : (persistSuppression flatRmpv (calmAt 30)
      (snapshotOf 2 100) (.fresh emptyTables)).1.isOk = true := by
    decide +kernel
  exact Prod.ext_iff.mpr ⟨ok_of_isOk succeeded, by rw [storedOnce]⟩

private theorem storedTwice_ok :
    persistSuppression flatRmpv (calmAt 200) (snapshotOf 3 300)
      storedOnce.db = (.ok (), storedTwice) := by
  have succeeded : (persistSuppression flatRmpv (calmAt 200)
      (snapshotOf 3 300) storedOnce.db).1.isOk = true := by
    decide +kernel
  exact Prod.ext_iff.mpr ⟨ok_of_isOk succeeded, by rw [storedTwice]⟩

private theorem valid_failedDownload {node : UInt8} {expiresAt : UInt64}
    (lives : (10 : UInt64).toNat < expiresAt.toNat) (limited : expiresAt.toNat ≤
      (10 : UInt64).toNat + suppressionSeconds) :
    ∀ record ∈ (snapshotOf node expiresAt).ledger.records,
      record.Valid := by
  intro record among
  rw [List.mem_singleton.mp among]
  exact ⟨(by decide : 1 ≤ (1 : UInt16).toNat),
    (by decide : (10 : UInt64).toNat ≤ (20 : UInt64).toNat), lives, limited⟩

/-- A snapshot with one record is stored, and its row is there. -/
theorem persistSuppression_exact_one :
    (unexpired storedOnce.db 30
      (hexEncode (Bytes.replicate 16 1).val, Bytes.replicate 16 2,
        Bytes.replicate 32 7)).map (fun row => decodeSuppression flatRmpv row.encoded) =
      some (.ok (failedDownload 2 100)) :=
  ((persistSuppression_exact lawful_flatRmpv).2.2 _ (.fresh emptyTables)
    (calmAt 30) (snapshotOf 2 100) storedOnce
    (valid_failedDownload (by decide +kernel) (by decide +kernel))
    storedOnce_ok).2 30
      (Nat.le_refl 30) (fun _ _ => Nat.le_refl 30) |>.1
        (Bytes.replicate 32 7)

/-- Storing a snapshot can remove a row of another node: one that has
expired. -/
theorem persistSuppression_sweeps :
    ∃ db turns snapshot after, ∃ key : SuppressionKey,
      Stored flatRmpv db ∧
      (∀ record ∈ snapshot.ledger.records, record.Valid) ∧
      persistSuppression flatRmpv turns snapshot db = (.ok (), after) ∧
      key.2.1 ≠ snapshot.node ∧
      (db.suppression.lookup key).isSome = true ∧
      after.db.suppression.lookup key = none := by
  have stored : Stored flatRmpv storedOnce.db := by
    rw [storedOnce]
    exact .persist _ _ (.fresh emptyTables)
  refine ⟨storedOnce.db, calmAt 200, snapshotOf 3 300, storedTwice,
    (failedDownload 2 100).key, stored,
    valid_failedDownload (by decide +kernel) (by decide +kernel),
    storedTwice_ok, by decide +kernel, by decide +kernel, ?_⟩
  have gone : (storedTwice.db.suppression.lookup
      (failedDownload 2 100).key).isNone = true := by
    decide +kernel
  exact Option.isNone_iff_eq_none.mp gone

end Ratspeak
