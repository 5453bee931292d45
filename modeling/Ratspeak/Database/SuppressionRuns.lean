import Ratspeak.Database.SuppressionCodec
import Ratspeak.Library.Overlay

/-!
# Storing a snapshot in batches

At any time that is not before those of the batches, the rows that have not
expired are those before, without the removed ones and overwritten by the new
ones, however the rows fall into batches.  Rows that have expired may go at
any batch.
-/

namespace Ratspeak

open Library Library.Overlay

/-! ## One batch -/

theorem lookup_foldl_erase {κ ν : Type} [DecidableEq κ]
    (entries : List (κ × ν)) (table : FiniteMap κ ν) (key : κ) :
    (entries.foldl (fun table entry => table.erase entry.1) table).lookup
        key =
      if key ∈ entries.map Prod.fst then none else table.lookup key := by
  induction entries generalizing table with
  | nil => rw [List.map_nil, if_neg List.not_mem_nil, List.foldl_nil]
  | cons entry rest ih =>
      rw [List.foldl_cons, ih, FiniteMap.lookup_erase_ite]
      by_cases own : key = entry.1
      · simp [own]
      · simp only [List.map_cons, List.mem_cons, own, if_false, false_or]

/-- A limited deletion removes some of the rows that it selects. -/
theorem lookup_deleteSome {κ ν : Type} [DecidableEq κ] (limit : Nat)
    (selects : κ → ν → Bool) (table : FiniteMap κ ν) (key : κ) :
    (AdmissionDb.deleteSome limit selects table).lookup key =
        table.lookup key ∨
      (AdmissionDb.deleteSome limit selects table).lookup key = none ∧
        ∃ row, table.lookup key = some row ∧ selects key row = true := by
  rw [AdmissionDb.deleteSome, lookup_foldl_erase]
  split
  · rename_i erased
    obtain ⟨entry, among, isKey⟩ := List.mem_map.mp erased
    obtain ⟨listed, selected⟩ :=
      List.mem_filter.mp (List.mem_of_mem_take among)
    refine Or.inr ⟨rfl, entry.2, ?_, ?_⟩
    · rw [← FiniteMap.mem_bindings_iff, ← isKey]
      exact listed
    · rw [← isKey]
      exact selected
  · exact Or.inl rfl

/-- The row of a key, if it has not expired. -/
def unexpired (db : AdmissionDb) (time : Nat) (key : SuppressionKey) :
    Option SuppressionRow :=
  (db.suppression.lookup key).filter fun row => time < row.expiresAt

/-- The rows as writes to the rows that have not expired. -/
def rowWrites (time : Nat) (rows : List SuppressionRow) :
    List (SuppressionKey × Option SuppressionRow) :=
  rows.map fun row =>
    (row.key, (some row).filter fun row => time < row.expiresAt)

/-- What a batch makes of the rows. -/
structure Wrote (rows : List SuppressionRow) (removed : List SuppressionKey)
    (now : Nat) (before after : AdmissionDb) : Prop where
  frame : after = { before with suppression := after.suppression }
  view : ∀ time, now ≤ time →
    unexpired after time =
      overwrite (rowWrites time rows) (clear removed (unexpired before time))
  old : ∀ key row, after.suppression.lookup key = some row →
    before.suppression.lookup key = some row ∨ row ∈ rows ∧ row.key = key

variable {rows : List SuppressionRow} {removed : List SuppressionKey}
  {now : Nat} {before after : AdmissionDb}

theorem wrote_sweep (now : Nat) (db : AdmissionDb) :
    Wrote [] [] now db (sweepSuppression now db) where
  frame := rfl
  view time later := by
    funext key
    rw [clear_nil]
    change unexpired (sweepSuppression now db) time key = unexpired db time key
    rw [unexpired, unexpired, sweepSuppression]
    rcases lookup_deleteSome 256
        (fun _ (row : SuppressionRow) => row.expiresAt ≤ now)
        db.suppression key with same | ⟨gone, row, found, expired⟩
    · rw [same]
    · have past : ¬time < row.expiresAt := by
        have isPast : row.expiresAt ≤ now := of_decide_eq_true expired
        omega
      rw [gone, found, Option.filter_none, Option.filter_some, if_neg (by simpa using past)]
  old key row found := by
    rcases lookup_deleteSome 256
        (fun _ (row : SuppressionRow) => row.expiresAt ≤ now)
        db.suppression key with same | ⟨gone, -⟩
    · rw [sweepSuppression, same] at found
      exact Or.inl found
    · rw [sweepSuppression, gone] at found
      cases found

theorem Wrote.remove (wrote : Wrote [] removed now before after) (key : SuppressionKey) :
    Wrote [] (removed ++ [key]) now before
      { after with suppression := after.suppression.erase key } where
  frame := by
    rw [wrote.frame]
  view time later := by
    have earlier := wrote.view time later
    change _ = clear (removed ++ [key]) (unexpired before time)
    change _ = clear removed (unexpired before time) at earlier
    rw [clear_concat, ← earlier]
    funext other
    rw [Function.update_apply, unexpired, FiniteMap.lookup_erase_ite]
    by_cases own : other = key
    · rw [if_pos own, if_pos own, Option.filter_none]
    · rw [if_neg own, if_neg own, unexpired]
  old other row found := by
    rw [FiniteMap.lookup_erase_ite] at found
    split at found
    · cases found
    · exact wrote.old other row found

theorem Wrote.write (wrote : Wrote rows removed now before after) (row : SuppressionRow) :
    Wrote (rows ++ [row]) removed now before
      { after with
        suppression := after.suppression.insert row.key row } where
  frame := by
    rw [wrote.frame]
  view time later := by
    rw [rowWrites, List.map_append, List.map_singleton, overwrite_concat,
      ← rowWrites, ← wrote.view time later]
    funext other
    rw [Function.update_apply, unexpired, FiniteMap.lookup_insert_ite]
    by_cases own : other = row.key
    · rw [if_pos own, if_pos own]
    · rw [if_neg own, if_neg own, unexpired]
  old other found isFound := by
    rw [FiniteMap.lookup_insert_ite] at isFound
    by_cases own : other = row.key
    · rw [if_pos own] at isFound
      cases isFound
      exact Or.inr ⟨List.mem_append_right _ (List.mem_singleton_self _), own.symm⟩
    · rw [if_neg own] at isFound
      exact (wrote.old other found isFound).imp_right fun isNew =>
        ⟨List.mem_append_left _ isNew.1, isNew.2⟩

theorem keeps_wrote (rows : List SuppressionRow)
    (remove : List SuppressionKey) (now : Nat) (before : AdmissionDb) :
    Tx.Keeps (fun db => db = before)
      (writeSuppressionProgram rows remove now)
      (fun _ after => Wrote rows remove now before after) := by
  rw [writeSuppressionProgram]
  apply Tx.settles_execute_bind
  intro db same
  subst same
  have removes : Tx.Keeps (fun start => start = sweepSuppression now db)
      (Tx.forEach (fun key => Tx.execute fun db : AdmissionDb =>
        { db with suppression := db.suppression.erase key }) remove :
        AdmissionTx (List PUnit))
      (fun _ reached => Wrote [] remove now db reached) := by
    apply (Tx.settles_forEach
      (fun done _ reached => Wrote [] done now db reached)
      (fun _ _ key => Tx.settles_execute fun _ held => held.remove key)
      remove).weaken
    · intro start same
      subst same
      exact wrote_sweep now db
    · intro _ _ held
      exact held
  apply removes.bind
  intro _
  have writes : Tx.Keeps (fun reached => Wrote [] remove now db reached)
      (Tx.forEach writeSuppressionRow rows)
      (fun _ reached => Wrote rows remove now db reached) := by
    apply Tx.settles_forEach (fun done _ reached => Wrote done remove now db reached)
    intro _ _ row
    rw [writeSuppressionRow]
    apply Tx.settles_query_bind
    intro reached held
    apply Tx.keeps_require_bind
    intro room
    apply Tx.settles_execute
    intro start same
    subst same
    exact held.write row
  apply writes.bind
  intro _
  exact Tx.settles_pure fun _ held => held

/-- A batch is written as a whole or not at all, and it is written if it
succeeds. -/
theorem wrote_perform (db : AdmissionDb) (call : AdmissionDbCall)
    (rows : List SuppressionRow) (remove : List SuppressionKey) (now : Nat) :
    Wrote rows remove now db
        (db.perform call (.writeSuppression rows remove now)).tables ∨
      (db.perform call (.writeSuppression rows remove now)).tables = db ∧
        ∃ failure,
          (db.perform call (.writeSuppression rows remove now)).result =
            .error failure := by
  rw [AdmissionDb.perform]
  split
  · exact Or.inr ⟨rfl, .tooLarge, rfl⟩
  · have answers : Tx.Keeps (fun start => start = db)
        (do
          let value ← writeSuppressionProgram rows remove now
          pure ((fun _ => .written : PUnit → AdmissionDbAnswer) value))
        (fun _ after => Wrote rows remove now db after) := by
      apply (keeps_wrote rows remove now db).bind
      intro _
      exact Tx.settles_pure fun _ held => held
    rcases Tx.immediate_cases answers call.circumstances
        (.commitUncertain call.reason) rfl with
      ⟨_, -, wrote, -⟩ | ⟨-, same, failed⟩
    · exact Or.inl wrote
    · exact Or.inr ⟨same, failed⟩

/-! ## Batch after batch -/

/-- What the batches so far have made of the rows. -/
structure Persisted (turns : PersistTurns) (rows : List SuppressionRow)
    (removed : List SuppressionKey) (before : AdmissionDb) (state : Persisting) : Prop where
  frame : state.db = { before with suppression := state.db.suppression }
  view : ∀ time, (∀ turn < state.turn, turns.now turn ≤ time) →
    unexpired state.db time =
      overwrite (rowWrites time rows) (clear removed (unexpired before time))
  old : ∀ key row, state.db.suppression.lookup key = some row →
    before.suppression.lookup key = some row ∨ row ∈ rows ∧ row.key = key

variable {turns : PersistTurns} {state : Persisting}

theorem persisted_start (turns : PersistTurns) (before : AdmissionDb) :
    Persisted turns [] [] before { db := before, turn := 0 } where
  frame := rfl
  view time _ := by
    rw [clear_nil]
    rfl
  old _ _ found := Or.inl found

/-- A batch either removes or writes; nothing is removed once rows have been
written. -/
theorem Persisted.wrote {more : List SuppressionRow} {gone : List SuppressionKey}
    (persisted : Persisted turns rows removed before state)
    (wrote : Wrote more gone (turns.now state.turn) state.db after)
    (apart : rows = [] ∨ gone = []) :
    Persisted turns (rows ++ more) (removed ++ gone) before
      { db := after, turn := state.turn + 1 } where
  frame := by
    rw [wrote.frame, persisted.frame]
  view time later := by
    have earlier := persisted.view time fun turn isEarlier =>
      later turn (Nat.lt_succ_of_lt isEarlier)
    have now : turns.now state.turn ≤ time :=
      later state.turn (Nat.lt_succ_self _)
    rw [wrote.view time now, earlier, rowWrites, rowWrites, rowWrites,
      List.map_append, overwrite_append, clear_append]
    rcases apart with noRows | noneGone
    · rw [noRows]
      rfl
    · rw [noneGone, clear_nil, clear_nil]
  old key row found := by
    rcases wrote.old key row found with kept | ⟨isNew, isKey⟩
    · exact (persisted.old key row kept).imp_right fun isNew =>
        ⟨List.mem_append_left _ isNew.1, isNew.2⟩
    · exact Or.inr ⟨List.mem_append_right _ isNew, isKey⟩

/-- A result that was computed, or nothing happened. -/
theorem meets_ofResult {Result : Type} {holds : Persisting → Prop}
    {failed : AdmissionDbError → Persisting → Prop} (result : Except AdmissionDbError Result)
    (fails : ∀ failure state, holds state → failed failure state) :
    Program.Meets holds (ofResult result)
      (fun value state => result = .ok value ∧ holds state) failed := by
  cases result with
  | ok value => exact Program.meets_pure fun _ held => ⟨rfl, held⟩
  | error failure =>
      exact Program.meets_throw fun state held => fails failure state held

/-- A batch that succeeds has been written. -/
theorem meets_writeSuppression (more : List SuppressionRow)
    (gone : List SuppressionKey) (apart : rows = [] ∨ gone = []) :
    Program.Meets (Persisted turns rows removed before)
      (writeSuppression turns more gone)
      (fun _ => Persisted turns (rows ++ more) (removed ++ gone) before)
      (fun _ _ => True) := by
  rw [writeSuppression]
  apply Program.meets_get_bind
  intro state persisted
  dsimp only
  have outcome := wrote_perform state.db (turns.call state.turn) more gone
    (turns.now state.turn)
  rcases outcome with wrote | ⟨-, failure, failed⟩
  · have reached := persisted.wrote wrote apart
    have moves : Program.Meets (fun start => start = state)
        (modify fun _ =>
          { db := (state.db.perform (turns.call state.turn)
              (.writeSuppression more gone (turns.now state.turn))).tables
            turn := state.turn + 1 } : PersistProgram PUnit)
        (fun _ => Persisted turns (rows ++ more) (removed ++ gone) before)
        (fun _ _ => True) :=
      Program.meets_modify fun _ _ => reached
    apply moves.bind
    intro _
    exact (meets_ofResult _ fun _ _ _ => trivial).weaken (fun _ held => held)
      (fun _ _ held => held.2) (fun _ _ held => held)
  · rw [failed]
    have moves : Program.Meets (fun start => start = state)
        (modify fun _ =>
          { db := (state.db.perform (turns.call state.turn)
              (.writeSuppression more gone (turns.now state.turn))).tables
            turn := state.turn + 1 } : PersistProgram PUnit)
        (fun _ _ => True) (fun _ _ => True) :=
      Program.meets_modify fun _ _ => trivial
    apply moves.bind
    intro _
    exact Program.meets_throw fun _ _ => trivial

theorem meets_writeRemovals (batches : List (List SuppressionKey)) :
    Program.Meets (Persisted turns [] removed before)
      (writeRemovals turns batches)
      (fun _ => Persisted turns [] (removed ++ batches.flatten) before)
      (fun _ _ => True) := by
  induction batches generalizing removed with
  | nil =>
      apply Program.meets_pure
      intro state persisted
      rwa [List.flatten_nil, List.append_nil]
  | cons batch rest ih =>
      apply (meets_writeSuppression [] batch (Or.inl rfl)).bind
      intro _
      have later := @ih (removed ++ batch)
      rwa [List.append_assoc, ← List.flatten_cons] at later

section Records

variable {Value : Type} {rmpv : Rmpv Value} {identity : String}

/-- The row of a record. -/
def IsRowOf (rmpv : Rmpv Value) (identity : String)
    (record : SuppressionRecord) (row : SuppressionRow) : Prop :=
  ∃ encoded, encodeSuppression rmpv record = .ok encoded ∧
    row = suppressionRow identity record encoded

/-- However the records fall into batches, all of them are written. -/
theorem meets_writeRecords (records : List SuppressionRecord) (batch : List SuppressionRow) :
    Program.Meets (Persisted turns rows removed before)
      (writeRecords rmpv turns identity batch records)
      (fun _ state => ∃ written,
        List.Forall₂ (IsRowOf rmpv identity) records written ∧
        Persisted turns (rows ++ (batch ++ written)) removed before state)
      (fun _ _ => True) := by
  induction records generalizing rows batch with
  | nil =>
      rw [writeRecords]
      split
      · rename_i empty
        have noBatch : batch = [] := List.isEmpty_iff.mp empty
        apply Program.meets_pure
        intro state persisted
        refine ⟨[], List.Forall₂.nil, ?_⟩
        rwa [noBatch, List.append_nil, List.append_nil]
      · apply (meets_writeSuppression batch [] (Or.inr rfl)).bind
        intro _
        apply Program.meets_pure
        intro state persisted
        rw [List.append_nil] at persisted
        refine ⟨[], List.Forall₂.nil, ?_⟩
        rwa [List.append_nil]
  | cons record rest ih =>
      rw [writeRecords]
      apply (meets_ofResult (encodeSuppression rmpv record) fun _ _ _ => trivial).bind
      intro encoded
      -- The row joins the batch, which may be written at once.
      have joins (written : List SuppressionRow) (state : Persisting)
          (isRest : List.Forall₂ (IsRowOf rmpv identity) rest written)
          (isEncoded : encodeSuppression rmpv record = .ok encoded)
          (persisted : Persisted turns
            (rows ++ (batch ++ [suppressionRow identity record encoded] ++
              written)) removed before state) :
          ∃ written,
            List.Forall₂ (IsRowOf rmpv identity) (record :: rest) written ∧
            Persisted turns (rows ++ (batch ++ written)) removed before
              state := by
        refine ⟨suppressionRow identity record encoded :: written,
          List.Forall₂.cons ⟨encoded, isEncoded, rfl⟩ isRest, ?_⟩
        rwa [List.append_assoc, List.singleton_append] at persisted
      apply Program.meets_of_state
      intro state ⟨isEncoded, persisted⟩
      dsimp only
      split
      · apply ((meets_writeSuppression
          (batch ++ [suppressionRow identity record encoded]) []
          (Or.inr rfl)).starting persisted).bind
        intro _
        rw [List.append_nil]
        apply (ih []).weaken (fun _ held => held) _
          (fun _ _ held => held)
        intro _ reached ⟨others, isRest, ends⟩
        rw [List.nil_append, List.append_assoc] at ends
        exact joins others reached isRest isEncoded ends
      · apply ((@ih rows
          (batch ++ [suppressionRow identity record encoded])).starting
            persisted).weaken (fun _ held => held) _ (fun _ _ held => held)
        intro _ reached ⟨others, isRest, ends⟩
        exact joins others reached isRest isEncoded ends

end Records

end Ratspeak
