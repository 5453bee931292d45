import Ratspeak.Library.FiniteMap
import Ratspeak.Library.Runs

/-!
# Message rows

The table of messages, one row for each identity and message id, and the
statements that write the delivery state of a row.

The state of an outbound message is meant to be a one-way lattice: a terminal
state stays.  Most statements carry this guard.  Saving a message whose row
exists already does not; a run keeps to the lattice exactly if no save in it
hits a row that the guard would have protected.
-/

namespace Ratspeak

open Library

/-- The identity and the id of a message. -/
abbrev MessageKey := String × String

/-- The columns of a message that the modelled statements read or write. -/
structure MessageRow where
  source : String
  destination : String
  state : String
  direction : String
  rttMs : Option (BitVec 64) := none
  attachmentStoredName : String := ""
  imageStoredName : String := ""
  audioStoredName : String := ""
  deliveryMethod : Option String := none
  thread : String := ""
deriving DecidableEq

abbrev MessageTable := FiniteMap MessageKey MessageRow

/-- The states from which no update leads away. -/
def terminalStates : List String :=
  ["delivered", "propagated", "failed", "cancelled", "rejected", "timeout", "paper"]

/-- The states of a message that was under way when the app stopped. -/
def staleStates : List String :=
  ["pending", "outbound", "generating", "sending", "routing", "resolving",
    "propagating", "resending", "link_establishing", "sending_via_link",
    "resource_link_ready", "resource_advertised", "resource_transferring",
    "resource_waiting_for_proof", "reusing_direct_link",
    "reusing_backchannel", "sent"]

namespace MessageTable

/-- Change the rows of a table that a statement selects. -/
def updateWhere (table : MessageTable) (selects : MessageKey → MessageRow → Bool)
    (change : MessageRow → MessageRow) : MessageTable :=
  FiniteMap.mapValues (fun key row => if selects key row then change row else row) table

/-- Save a message.  Of a row that exists only the state is written. -/
def trySaveMessage (table : MessageTable) (key : MessageKey)
    (row : MessageRow) : Option MessageTable :=
  if key.1.isEmpty then none
  else
    match table.lookup key with
    | some _ =>
        some (table.updateWhere (fun other _ => other = key)
          fun old => { old with state := row.state })
    | none => some (table.insert key row)

/-- An outbound row that has not come to its end. -/
def isPending (row : MessageRow) : Bool :=
  row.direction = "outbound" && !decide (row.state ∈ terminalStates)

def updateMessageState (table : MessageTable) (key : MessageKey)
    (state : String) (rttMs : Option (BitVec 64)) : MessageTable :=
  table.updateWhere (fun other row => other = key && isPending row)
    fun row => { row with state := state, rttMs := rttMs.or row.rttMs }

def cancelOutboundMessageState (table : MessageTable) (key : MessageKey) :
    MessageTable :=
  table.updateWhere (fun other row => other = key && isPending row)
    fun row => { row with state := "cancelled" }

/-- Mark what came from a peer as read: one conversation, or all. -/
def markRead (table : MessageTable) (identity peer : String)
    (thread : Option String) : MessageTable :=
  table.updateWhere
    (fun other row => row.source = peer && row.direction = "inbound" &&
      row.state ≠ "read" && other.1 = identity &&
      thread.all fun thread => row.thread = thread)
    fun row => { row with state := "read" }

def cleanupStaleOutbound (table : MessageTable) (identity : String) :
    MessageTable :=
  table.updateWhere
    (fun other row => row.state ∈ staleStates &&
      row.direction = "outbound" && other.1 = identity)
    fun row => { row with state := "failed" }

end MessageTable

/-! ## Operations -/

inductive MessageOp where
  | save (key : MessageKey) (row : MessageRow)
  | updateState (key : MessageKey) (state : String)
      (rttMs : Option (BitVec 64))
  | cancel (key : MessageKey)
  | markRead (identity peer : String) (thread : Option String)
  | cleanupStale (identity : String)

namespace MessageOp

/-- The identity for which the operation is carried out. -/
def identity : MessageOp → String
  | save key _ => key.1
  | updateState key _ _ => key.1
  | cancel key => key.1
  | markRead identity _ _ => identity
  | cleanupStale identity => identity

/-- The direction of the messages that the operation is about. -/
def direction : MessageOp → String
  | save _ row => row.direction
  | updateState _ _ _ => "outbound"
  | cancel _ => "outbound"
  | markRead _ _ _ => "inbound"
  | cleanupStale _ => "outbound"

end MessageOp

namespace MessageTable

/-- The table after an operation; one that fails changes nothing. -/
def step (table : MessageTable) : MessageOp → MessageTable
  | .save key row => (table.trySaveMessage key row).getD table
  | .updateState key state rttMs => table.updateMessageState key state rttMs
  | .cancel key => table.cancelOutboundMessageState key
  | .markRead identity peer thread => table.markRead identity peer thread
  | .cleanupStale identity => table.cleanupStaleOutbound identity

@[simp]
theorem lookup_updateWhere (table : MessageTable) (selects : MessageKey → MessageRow → Bool)
    (change : MessageRow → MessageRow) (tested : MessageKey) :
    (table.updateWhere selects change).lookup tested =
      (table.lookup tested).map fun row =>
        if selects tested row then change row else row := by
  rw [updateWhere, FiniteMap.lookup_mapValues]

end MessageTable

/-! ## The lattice -/

/-- The row has a state that it must keep. -/
def MessageRow.Settled (row : MessageRow) : Prop :=
  (row.direction = "outbound" ∧ row.state ∈ terminalStates) ∨
    (row.direction = "inbound" ∧ row.state = "read")

instance (row : MessageRow) : Decidable row.Settled :=
  inferInstanceAs (Decidable (_ ∨ _))

/-- A settled row is still there, in the same direction and state. -/
def OneWay (before after : MessageTable) : Prop :=
  ∀ key row, before.lookup key = some row → row.Settled →
    ∃ later, after.lookup key = some later ∧
      later.direction = row.direction ∧ later.state = row.state

/-- The operation touched rows of its identity and direction only. -/
def MessageOp.Confined (op : MessageOp) (before after : MessageTable) :
    Prop :=
  ∀ key row, before.lookup key = some row →
    key.1 ≠ op.identity ∨ row.direction ≠ op.direction →
    after.lookup key = some row

theorem OneWay.refl (table : MessageTable) : OneWay table table :=
  fun _ row held _ => ⟨row, held, rfl, rfl⟩

theorem OneWay.trans {first second third : MessageTable}
    (before : OneWay first second) (after : OneWay second third) :
    OneWay first third := by
  intro key row held settled
  obtain ⟨middle, middleHeld, direction, state⟩ := before key row held settled
  have stays : middle.Settled := by
    rw [MessageRow.Settled, direction, state]
    exact settled
  obtain ⟨later, laterHeld, laterDirection, laterState⟩ :=
    after key middle middleHeld stays
  exact ⟨later, laterHeld, laterDirection.trans direction, laterState.trans state⟩

/-- A statement that leaves settled rows as they are. -/
theorem oneWay_updateWhere {table : MessageTable}
    {selects : MessageKey → MessageRow → Bool} {change : MessageRow → MessageRow}
    (open_ : ∀ key row, selects key row = true → row.Settled →
      (change row).direction = row.direction ∧ (change row).state = row.state) :
    OneWay table (table.updateWhere selects change) := by
  intro key row held settled
  rw [MessageTable.lookup_updateWhere, held, Option.map_some]
  refine ⟨_, rfl, ?_⟩
  split
  · rename_i selected
    exact open_ key row selected settled
  · exact ⟨rfl, rfl⟩

/-- A statement that selects rows of one identity and direction. -/
theorem confined_updateWhere {op : MessageOp} {table : MessageTable}
    {selects : MessageKey → MessageRow → Bool} {change : MessageRow → MessageRow}
    (narrow : ∀ key row, selects key row = true →
      key.1 = op.identity ∧ row.direction = op.direction) :
    op.Confined table (table.updateWhere selects change) := by
  intro key row held foreign
  rw [MessageTable.lookup_updateWhere, held, Option.map_some, if_neg]
  intro selected
  obtain ⟨sameIdentity, sameDirection⟩ := narrow key row selected
  rcases foreign with otherIdentity | otherDirection
  · exact otherIdentity sameIdentity
  · exact otherDirection sameDirection

private theorem isPending_spec {row : MessageRow}
    (pending : MessageTable.isPending row = true) :
    row.direction = "outbound" ∧ ¬ row.Settled := by
  rw [MessageTable.isPending, Bool.and_eq_true, decide_eq_true_eq,
    Bool.not_eq_true', decide_eq_false_iff_not] at pending
  refine ⟨pending.1, ?_⟩
  rintro (⟨-, terminal⟩ | ⟨inbound, -⟩)
  · exact pending.2 terminal
  · rw [pending.1] at inbound
    exact absurd inbound (by decide)

/-- The one save that no guard covers: of a row that exists, in another
direction or with another state than a settled row has. -/
def MessageOp.Permits (table : MessageTable) : MessageOp → Prop
  | .save key row =>
      key.1.isEmpty = false →
      ∀ old, table.lookup key = some old →
        (old.Settled → row.state = old.state) ∧
          (old.direction ≠ row.direction → row.state = old.state)
  | _ => True

/-- The row that a save leaves. -/
private theorem lookup_step_save {table : MessageTable} {key : MessageKey}
    {row old : MessageRow} (named : key.1.isEmpty = false)
    (held : table.lookup key = some old) (tested : MessageKey) :
    (table.step (.save key row)).lookup tested =
      (table.lookup tested).map fun other =>
        if tested = key then { other with state := row.state }
        else other := by
  rw [MessageTable.step, MessageTable.trySaveMessage, named]
  simp only [held, Bool.false_eq_true, if_false, Option.getD_some,
    MessageTable.lookup_updateWhere, decide_eq_true_eq]

private theorem lookup_step_insert {table : MessageTable} {key : MessageKey}
    {row : MessageRow} (named : key.1.isEmpty = false)
    (fresh : table.lookup key = none) (tested : MessageKey) :
    (table.step (.save key row)).lookup tested =
      if tested = key then some row else table.lookup tested := by
  rw [MessageTable.step, MessageTable.trySaveMessage, named]
  simp only [fresh, Bool.false_eq_true, if_false, Option.getD_some, FiniteMap.lookup_insert_ite]

private theorem step_save_unnamed {table : MessageTable} {key : MessageKey}
    {row : MessageRow} (unnamed : key.1.isEmpty = true) :
    table.step (.save key row) = table := by
  rw [MessageTable.step, MessageTable.trySaveMessage, unnamed]
  rfl

/-- A save keeps to the lattice and to its own rows exactly if it is
permitted. -/
theorem permits_save_iff (table : MessageTable) (key : MessageKey) (row : MessageRow) :
    MessageOp.Permits table (.save key row) ↔
      OneWay table (table.step (.save key row)) ∧
        (MessageOp.save key row).Confined table
          (table.step (.save key row)) := by
  by_cases unnamed : key.1.isEmpty = true
  · rw [step_save_unnamed unnamed]
    constructor
    · intro _
      exact ⟨OneWay.refl table, fun _ _ held _ => held⟩
    · intro _ named
      rw [unnamed] at named
      cases named
  · have named : key.1.isEmpty = false :=
      Bool.eq_false_iff.mpr unnamed
    cases held : table.lookup key with
    | none =>
        constructor
        · intro _
          have others {tested : MessageKey} {other : MessageRow}
              (otherHeld : table.lookup tested = some other) :
              (table.step (.save key row)).lookup tested = some other := by
            rw [lookup_step_insert named held, if_neg, otherHeld]
            rintro rfl
            rw [held] at otherHeld
            cases otherHeld
          exact ⟨fun tested other otherHeld _ =>
            ⟨other, others otherHeld, rfl, rfl⟩,
            fun tested other otherHeld _ => others otherHeld⟩
        · intro _ _ old oldHeld
          rw [held] at oldHeld
          cases oldHeld
    | some old =>
        constructor
        · intro permits
          obtain ⟨settled, foreign⟩ := permits named old held
          refine ⟨fun tested other otherHeld isSettled => ?_,
            fun tested other otherHeld outside => ?_⟩
          · rw [lookup_step_save named held, otherHeld, Option.map_some]
            refine ⟨_, rfl, ?_⟩
            split
            · rename_i same
              subst same
              obtain rfl := Option.some.inj (held.symm.trans otherHeld)
              exact ⟨rfl, settled isSettled⟩
            · exact ⟨rfl, rfl⟩
          · rw [lookup_step_save named held, otherHeld, Option.map_some]
            split
            · rename_i same
              subst same
              obtain rfl := Option.some.inj (held.symm.trans otherHeld)
              have kept : row.state = old.state := by
                rcases outside with otherIdentity | otherDirection
                · exact (otherIdentity rfl).elim
                · exact foreign otherDirection
              rw [kept]
            · rfl
        · rintro ⟨oneWay, confined⟩ _ other otherHeld
          obtain rfl := Option.some.inj (held.symm.trans otherHeld)
          have written : (table.step (.save key row)).lookup key =
              some { old with state := row.state } := by
            rw [lookup_step_save named held, held, Option.map_some, if_pos rfl]
          refine ⟨fun isSettled => ?_, fun foreign => ?_⟩
          · obtain ⟨later, laterHeld, -, same⟩ :=
              oneWay key old held isSettled
            rw [written] at laterHeld
            rw [← same, ← Option.some.inj laterHeld]
          · have kept := confined key old held (Or.inr foreign)
            rw [written] at kept
            have states := congrArg MessageRow.state (Option.some.inj kept)
            exact states

private theorem not_terminal_of_stale :
    ∀ state, state ∈ staleStates → ¬ state ∈ terminalStates := by
  decide

/-- An operation keeps to the lattice and to its own rows exactly if it is
permitted. -/
theorem permits_iff (table : MessageTable) (op : MessageOp) :
    op.Permits table ↔
      OneWay table (table.step op) ∧ op.Confined table (table.step op) := by
  cases op with
  | save key row => exact permits_save_iff table key row
  | updateState key state rttMs =>
      refine ⟨fun _ => ⟨oneWay_updateWhere ?_, confined_updateWhere ?_⟩,
        fun _ => trivial⟩
      · intro other row selected settled
        have pending := (Bool.and_eq_true_iff.mp selected).2
        exact ((isPending_spec pending).2 settled).elim
      · intro other row selected
        obtain ⟨same, pending⟩ := Bool.and_eq_true_iff.mp selected
        refine ⟨?_, (isPending_spec pending).1⟩
        rw [of_decide_eq_true same]
        rfl
  | cancel key =>
      refine ⟨fun _ => ⟨oneWay_updateWhere ?_, confined_updateWhere ?_⟩,
        fun _ => trivial⟩
      · intro other row selected settled
        have pending := (Bool.and_eq_true_iff.mp selected).2
        exact ((isPending_spec pending).2 settled).elim
      · intro other row selected
        obtain ⟨same, pending⟩ := Bool.and_eq_true_iff.mp selected
        refine ⟨?_, (isPending_spec pending).1⟩
        rw [of_decide_eq_true same]
        rfl
  | markRead identity peer thread =>
      refine ⟨fun _ => ⟨oneWay_updateWhere ?_, confined_updateWhere ?_⟩,
        fun _ => trivial⟩
      · intro other row selected settled
        simp only [Bool.and_eq_true, decide_eq_true_eq] at selected
        obtain ⟨⟨⟨⟨-, inbound⟩, unread⟩, -⟩, -⟩ := selected
        rcases settled with ⟨outbound, -⟩ | ⟨-, isRead⟩
        · rw [inbound] at outbound
          exact absurd outbound (by decide)
        · exact (unread isRead).elim
      · intro other row selected
        simp only [Bool.and_eq_true, decide_eq_true_eq] at selected
        exact ⟨selected.1.2, selected.1.1.1.2⟩
  | cleanupStale identity =>
      refine ⟨fun _ => ⟨oneWay_updateWhere ?_, confined_updateWhere ?_⟩,
        fun _ => trivial⟩
      · intro other row selected settled
        simp only [Bool.and_eq_true, decide_eq_true_eq] at selected
        obtain ⟨⟨stale, outbound⟩, -⟩ := selected
        rcases settled with ⟨-, terminal⟩ | ⟨inbound, -⟩
        · exact (not_terminal_of_stale row.state stale terminal).elim
        · rw [outbound] at inbound
          exact absurd inbound (by decide)
      · intro other row selected
        simp only [Bool.and_eq_true, decide_eq_true_eq] at selected
        exact ⟨selected.2, selected.1.2⟩

/-! ## Runs -/

/-- Every permitted run is one way from its start. -/
theorem oneWay_runFrom {table : MessageTable} {ops : List MessageOp}
    (along : Along MessageTable.step (fun table op => op.Permits table)
      table ops) :
    OneWay table (runFrom MessageTable.step table ops) := by
  have kept (reached : MessageTable) (op : MessageOp)
      (oneWay : OneWay table reached) (permits : op.Permits reached) :
      OneWay table (reached.step op) :=
    oneWay.trans ((permits_iff reached op).mp permits).1
  exact invariant_runFrom (OneWay table) kept (OneWay.refl table) along

/-- In every run whose saves are all permitted, a settled row keeps its state
from any point of the run to any later one, and every operation touches rows
of its own identity and direction only; and in no other run is that so. -/
theorem deliveryState_run (table : MessageTable) (ops : List MessageOp) :
    Along MessageTable.step (fun table op => op.Permits table) table ops ↔
      (∀ first later rest, ops = first ++ later ++ rest →
        OneWay (runFrom MessageTable.step table first)
          (runFrom MessageTable.step table (first ++ later))) ∧
      ∀ first op rest, ops = first ++ op :: rest →
        op.Confined (runFrom MessageTable.step table first)
          (runFrom MessageTable.step table (first ++ [op])) := by
  constructor
  · intro along
    refine ⟨fun first later rest whole => ?_, fun first op rest whole => ?_⟩
    · rw [whole, List.append_assoc] at along
      have after := ((along_append _ _ table first _).mp along).2
      rw [along_append] at after
      rw [runFrom_append]
      exact oneWay_runFrom after.1
    · rw [whole] at along
      have after := ((along_append _ _ table first _).mp along).2
      rw [runFrom_append]
      exact ((permits_iff _ op).mp after.1).2
  · rintro ⟨oneWay, confined⟩
    induction ops generalizing table with
    | nil => trivial
    | cons op rest ih =>
        refine ⟨(permits_iff table op).mpr ⟨?_, ?_⟩, ih (table.step op) ?_ ?_⟩
        · exact oneWay [] [op] rest rfl
        · exact confined [] op rest rfl
        · intro first later others whole
          exact oneWay (op :: first) later others (by rw [whole]; rfl)
        · intro first other others whole
          exact confined (op :: first) other others (by rw [whole]; rfl)

/-- A delivered message that is saved again is pending again. -/
theorem deliveryState_savedAgain :
    let key : MessageKey := ("alice", "m1")
    let row : MessageRow :=
      { source := "alice"
        destination := "bob"
        state := "sending"
        direction := "outbound" }
    let ops : List MessageOp :=
      [.save key row, .updateState key "delivered" none, .save key row]
    ¬ ∀ first later rest, ops = first ++ later ++ rest →
      OneWay (runFrom MessageTable.step ∅ first)
        (runFrom MessageTable.step ∅ (first ++ later)) := by
  intro key row ops oneWay
  obtain ⟨later, held, -, state⟩ := oneWay
    [.save key row, .updateState key "delivered" none] [.save key row] []
    rfl key { row with state := "delivered" } (by decide +kernel)
    (by decide +kernel)
  have again : (runFrom MessageTable.step ∅ ops).lookup key = some row := by
    decide +kernel
  obtain rfl := Option.some.inj (again.symm.trans held)
  exact absurd state (by decide)

end Ratspeak
