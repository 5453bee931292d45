import Mathlib.Data.List.Infix
import Ratspeak.Client.HistoryWriter

/-!
# What a writer owes

The writer, seen as a line of commands: those that were sent and not yet dealt
with, the oldest first.  Commands enter at the end and leave at the front.
`HistoryFlow` lists all that can happen to the line, to those who wait and to
the counts, and every step of the writer is one of these.

Whatever the log of marks says was accepted was then acknowledged or stands in
the line, in the order in which it was accepted.
-/

namespace Ratspeak

open Library

/-! ## What a log says -/

abbrev HistoryLog := List HistoryMark

namespace HistoryLog

/-- The events that the session handed over. -/
def offered (log : HistoryLog) : List NewChannelHistoryEvent :=
  log.flatMap fun mark =>
    match mark with
    | .offered events => events
    | _ => []

/-- The events that were accepted or dropped, in order. -/
def drained (log : HistoryLog) : List NewChannelHistoryEvent :=
  log.flatMap fun mark =>
    match mark with
    | .accepted event => [event]
    | .dropped event => [event]
    | _ => []

def accepted (log : HistoryLog) : List NewChannelHistoryEvent :=
  log.flatMap fun mark =>
    match mark with
    | .accepted event => [event]
    | _ => []

def dropped (log : HistoryLog) : List NewChannelHistoryEvent :=
  log.flatMap fun mark =>
    match mark with
    | .dropped event => [event]
    | _ => []

/-- The events of batches whose append was answered with success. -/
def acknowledged (log : HistoryLog) : List NewChannelHistoryEvent :=
  log.flatMap fun mark =>
    match mark with
    | .acknowledged batch => batch
    | _ => []

/-- The events of batches that were taken out of the count. -/
def recorded (log : HistoryLog) : List NewChannelHistoryEvent :=
  log.flatMap fun mark =>
    match mark with
    | .recorded batch => batch
    | _ => []

variable (log more : HistoryLog)

@[simp]
theorem offered_append :
    offered (log ++ more) = offered log ++ offered more :=
  List.flatMap_append

@[simp]
theorem drained_append :
    drained (log ++ more) = drained log ++ drained more :=
  List.flatMap_append

@[simp]
theorem accepted_append :
    accepted (log ++ more) = accepted log ++ accepted more :=
  List.flatMap_append

@[simp]
theorem dropped_append :
    dropped (log ++ more) = dropped log ++ dropped more :=
  List.flatMap_append

@[simp]
theorem acknowledged_append :
    acknowledged (log ++ more) = acknowledged log ++ acknowledged more :=
  List.flatMap_append

@[simp]
theorem recorded_append :
    recorded (log ++ more) = recorded log ++ recorded more :=
  List.flatMap_append

@[simp]
theorem offered_singleton (mark : HistoryMark) :
    offered [mark] =
      match mark with
      | .offered events => events
      | _ => [] :=
  List.flatMap_singleton ..

@[simp]
theorem drained_singleton (mark : HistoryMark) :
    drained [mark] =
      match mark with
      | .accepted event => [event]
      | .dropped event => [event]
      | _ => [] :=
  List.flatMap_singleton ..

@[simp]
theorem accepted_singleton (mark : HistoryMark) :
    accepted [mark] =
      match mark with
      | .accepted event => [event]
      | _ => [] :=
  List.flatMap_singleton ..

@[simp]
theorem dropped_singleton (mark : HistoryMark) :
    dropped [mark] =
      match mark with
      | .dropped event => [event]
      | _ => [] :=
  List.flatMap_singleton ..

@[simp]
theorem acknowledged_singleton (mark : HistoryMark) :
    acknowledged [mark] =
      match mark with
      | .acknowledged batch => batch
      | _ => [] :=
  List.flatMap_singleton ..

@[simp]
theorem recorded_singleton (mark : HistoryMark) :
    recorded [mark] =
      match mark with
      | .recorded batch => batch
      | _ => [] :=
  List.flatMap_singleton ..

/-- Marks that say nothing about events. -/
structure Silent (marks : HistoryLog) : Prop where
  offered : offered marks = []
  drained : drained marks = []
  accepted : accepted marks = []
  dropped : dropped marks = []
  acknowledged : acknowledged marks = []
  recorded : recorded marks = []

theorem silent_nil : Silent [] :=
  ⟨rfl, rfl, rfl, rfl, rfl, rfl⟩

end HistoryLog

/-- The events among commands. -/
def appends (commands : List ChannelHistoryCommand) :
    List NewChannelHistoryEvent :=
  commands.flatMap fun command =>
    match command with
    | .append event => [event]
    | _ => []

@[simp]
theorem appends_nil : appends [] = [] :=
  rfl

@[simp]
theorem appends_cons (command : ChannelHistoryCommand) (rest : List ChannelHistoryCommand) :
    appends (command :: rest) =
      (match command with
        | .append event => [event]
        | _ => []) ++ appends rest :=
  List.flatMap_cons ..

@[simp]
theorem appends_append (first second : List ChannelHistoryCommand) :
    appends (first ++ second) = appends first ++ appends second :=
  List.flatMap_append

@[simp]
theorem appends_map_append (batch : List NewChannelHistoryEvent) :
    appends (batch.map .append) = batch := by
  induction batch with
  | nil => rfl
  | cons event rest ih =>
      rw [List.map_cons]
      exact congrArg (event :: ·) ih

@[simp]
theorem appends_map_observe (batch : List NewChannelParticipantObservation) :
    appends (batch.map .observe) = [] := by
  induction batch with
  | nil => rfl
  | cons observation rest ih => exact ih

/-! ## The line and what happens to it -/

structure HistoryLedger where
  ahead : List ChannelHistoryCommand
  waiting : List ChannelHistoryCommand
  unrecorded : List NewChannelHistoryEvent
  busy : Bool
  remaining : List NewChannelHistoryEvent
  entering : Nat
  refused : Nat
  pending : Nat
  dropped : Nat
  oneshots : Nat
  closing : Bool
  stopped : Bool

/-- All that a step can do, and how it marks it. -/
inductive HistoryFlow (ledger : HistoryLedger) :
    HistoryLedger → HistoryLog → Prop
  | rests : HistoryFlow ledger ledger []
  | lands (batch : List NewChannelHistoryEvent) :
      HistoryFlow ledger ledger [.landed batch]
  | offers (events : List NewChannelHistoryEvent)
      (free : ledger.busy = false) :
      HistoryFlow ledger
        { ledger with
          busy := true
          remaining := events
          entering := 0
          refused := 0 }
        [.offered events]
  | drops (event : NewChannelHistoryEvent)
      (rest : List NewChannelHistoryEvent)
      (next : ledger.remaining = event :: rest) :
      HistoryFlow ledger
        { ledger with
          remaining := rest
          refused := u64SaturatingAdd ledger.refused 1 }
        [.dropped event]
  | accepts (event : NewChannelHistoryEvent)
      (rest : List NewChannelHistoryEvent)
      (next : ledger.remaining = event :: rest)
      (running : ledger.stopped = false) :
      HistoryFlow ledger
        { ledger with
          ahead := ledger.ahead ++ [.append event]
          remaining := rest
          entering := u64SaturatingAdd ledger.entering 1 }
        [.accepted event]
  | counts (done : ledger.remaining = []) :
      HistoryFlow ledger
        { ledger with
          busy := false
          entering := 0
          refused := 0
          pending := u64SaturatingAdd ledger.pending ledger.entering
          dropped :=
            if ledger.refused = 0 then ledger.dropped
            else u64SaturatingAdd ledger.dropped ledger.refused }
        [.counted]
  | joins (observation : NewChannelParticipantObservation)
      (running : ledger.stopped = false) :
      HistoryFlow ledger { ledger with ahead := ledger.ahead ++ [.observe observation] } []
  | asks :
      HistoryFlow ledger
        { ledger with
          waiting := ledger.waiting ++ [.barrier ledger.oneshots]
          oneshots := ledger.oneshots + 1 }
        [.asked ledger.oneshots]
  | closes :
      HistoryFlow ledger
        { ledger with
          waiting := ledger.waiting ++ [.shutdown ledger.oneshots]
          oneshots := ledger.oneshots + 1
          closing := true }
        []
  | closesLate : HistoryFlow ledger { ledger with closing := true } []
  | enters (command : ChannelHistoryCommand)
      (others : List ChannelHistoryCommand)
      (waited : command ∈ ledger.waiting)
      (fewer : others.Sublist ledger.waiting)
      (running : ledger.stopped = false) :
      HistoryFlow ledger
        { ledger with
          ahead := ledger.ahead ++ [command]
          waiting := others }
        []
  | leaves (others : List ChannelHistoryCommand)
      (fewer : others.Sublist ledger.waiting) :
      HistoryFlow ledger { ledger with waiting := others } []
  | acknowledges (batch : List NewChannelHistoryEvent)
      (rest : List ChannelHistoryCommand) (landed : HistoryLog)
      (running : ledger.stopped = false)
      (first : ledger.ahead = batch.map .append ++ rest)
      (settled : ledger.unrecorded = [])
      (onlyLands : landed = [] ∨ landed = [.landed batch]) :
      HistoryFlow ledger
        { ledger with ahead := rest, unrecorded := batch }
        (landed ++ [.acknowledged batch])
  | remembers (batch : List NewChannelParticipantObservation)
      (rest : List ChannelHistoryCommand)
      (first : ledger.ahead = batch.map .observe ++ rest) :
      HistoryFlow ledger { ledger with ahead := rest } []
  | records (free : ledger.busy = false) :
      HistoryFlow ledger
        { ledger with
          unrecorded := []
          pending := ledger.pending - ledger.unrecorded.length }
        [.recorded ledger.unrecorded]
  | answers (resultTx : Nat) (rest : List ChannelHistoryCommand)
      (first : ledger.ahead = .barrier resultTx :: rest) :
      HistoryFlow ledger { ledger with ahead := rest } [.answered resultTx]
  | stops
      (allowed : ledger.closing = true ∨ ∃ resultTx, .shutdown resultTx ∈ ledger.ahead) :
      HistoryFlow ledger { ledger with ahead := [], stopped := true } []

namespace HistoryLedger

open HistoryLog

/-! ## Nothing is lost or reordered -/

structure Conserved (ledger : HistoryLedger) (log : HistoryLog) :
    Prop where
  offered : offered log = drained log ++ ledger.remaining
  order : ledger.stopped = false → accepted log = acknowledged log ++ appends ledger.ahead
  kept : acknowledged log <+: accepted log
  recorded : acknowledged log = recorded log ++ ledger.unrecorded
  idle : ledger.busy = false → ledger.remaining = []
  waiting : appends ledger.waiting = []

variable {ledger after : HistoryLedger} {log marks : HistoryLog}

theorem appends_eq_nil_of_mem {commands : List ChannelHistoryCommand}
    (noEvent : appends commands = []) {command : ChannelHistoryCommand}
    (member : command ∈ commands) : appends [command] = [] := by
  have each := List.flatMap_eq_nil_iff.mp noEvent command member
  rw [appends, List.flatMap_singleton]
  exact each

theorem appends_eq_nil_of_sublist {commands fewer : List ChannelHistoryCommand}
    (noEvent : appends commands = []) (sublist : fewer.Sublist commands) :
    appends fewer = [] := by
  apply List.flatMap_eq_nil_iff.mpr
  intro command member
  exact List.flatMap_eq_nil_iff.mp noEvent command (sublist.subset member)

/-- Where the marks say nothing about events, only the events in the line
have to stay. -/
theorem Conserved.silent (conserved : ledger.Conserved log)
    (silent : Silent marks) (remaining : after.remaining = ledger.remaining)
    (unrecorded : after.unrecorded = ledger.unrecorded)
    (ahead : after.stopped = false → ledger.stopped = false ∧
      appends after.ahead = appends ledger.ahead)
    (idle : after.busy = false → ledger.remaining = []) (waiting : appends after.waiting = []) :
    after.Conserved (log ++ marks) where
  offered := by
    rw [offered_append, drained_append, silent.offered, silent.drained,
      remaining, List.append_nil, List.append_nil]
    exact conserved.offered
  order running := by
    obtain ⟨ran, same⟩ := ahead running
    rw [accepted_append, acknowledged_append, silent.accepted,
      silent.acknowledged, same, List.append_nil, List.append_nil]
    exact conserved.order ran
  kept := by
    rw [accepted_append, acknowledged_append, silent.accepted,
      silent.acknowledged, List.append_nil, List.append_nil]
    exact conserved.kept
  recorded := by
    rw [recorded_append, acknowledged_append, silent.recorded,
      silent.acknowledged, unrecorded, List.append_nil, List.append_nil]
    exact conserved.recorded
  idle free := remaining.trans (idle free)
  waiting := waiting

theorem Conserved.offers (conserved : ledger.Conserved log)
    (events : List NewChannelHistoryEvent) (free : ledger.busy = false) :
    Conserved
      { ledger with
        busy := true, remaining := events, entering := 0, refused := 0 }
      (log ++ [.offered events]) where
  offered := by
    have before := conserved.offered
    rw [conserved.idle free, List.append_nil] at before
    simp [before]
  order running := by
    simpa using conserved.order running
  kept := by
    simpa using conserved.kept
  recorded := by
    simpa using conserved.recorded
  idle busy := nomatch busy
  waiting := conserved.waiting

theorem Conserved.drops (conserved : ledger.Conserved log)
    {event : NewChannelHistoryEvent} {rest : List NewChannelHistoryEvent}
    (next : ledger.remaining = event :: rest) (refused : Nat) :
    Conserved { ledger with remaining := rest, refused := refused }
      (log ++ [.dropped event]) where
  offered := by
    simp [conserved.offered, next]
  order running := by
    simpa using conserved.order running
  kept := by
    simpa using conserved.kept
  recorded := by
    simpa using conserved.recorded
  idle free := by
    have none := conserved.idle free
    rw [next] at none
    cases none
  waiting := conserved.waiting

theorem Conserved.accepts (conserved : ledger.Conserved log)
    {event : NewChannelHistoryEvent} {rest : List NewChannelHistoryEvent}
    (next : ledger.remaining = event :: rest) (entering : Nat) :
    Conserved
      { ledger with
        ahead := ledger.ahead ++ [.append event]
        remaining := rest
        entering := entering }
      (log ++ [.accepted event]) where
  offered := by
    simp [conserved.offered, next]
  order running := by
    simp [conserved.order running]
  kept := by
    have extended : accepted log <+: accepted log ++ [event] :=
      List.prefix_append _ _
    simpa using conserved.kept.trans extended
  recorded := by
    simpa using conserved.recorded
  idle free := by
    have none := conserved.idle free
    rw [next] at none
    cases none
  waiting := conserved.waiting

/-- A batch leaves the front of the line and is acknowledged. -/
theorem Conserved.acknowledges (conserved : ledger.Conserved log)
    {batch : List NewChannelHistoryEvent}
    {rest : List ChannelHistoryCommand} {landed : HistoryLog}
    (running : ledger.stopped = false) (first : ledger.ahead = batch.map .append ++ rest)
    (settled : ledger.unrecorded = []) (silent : Silent landed) :
    Conserved { ledger with ahead := rest, unrecorded := batch }
      (log ++ (landed ++ [.acknowledged batch])) := by
  have order : accepted log =
      acknowledged log ++ (batch ++ appends rest) := by
    have before := conserved.order running
    rwa [first, appends_append, appends_map_append] at before
  have recorded : log.acknowledged = log.recorded := by
    have before := conserved.recorded
    rwa [settled, List.append_nil] at before
  constructor
  · simp [silent.offered, silent.drained, conserved.offered]
  · intro _
    simp [silent.accepted, silent.acknowledged, order]
  · simp [silent.accepted, silent.acknowledged, order]
  · simp [silent.acknowledged, silent.recorded, recorded]
  · exact conserved.idle
  · exact conserved.waiting

theorem Conserved.records (conserved : ledger.Conserved log) (pending : Nat) :
    Conserved { ledger with unrecorded := [], pending := pending }
      (log ++ [.recorded ledger.unrecorded]) where
  offered := by
    simpa using conserved.offered
  order running := by
    simpa using conserved.order running
  kept := by
    simpa using conserved.kept
  recorded := by
    simp [conserved.recorded]
  idle := conserved.idle
  waiting := conserved.waiting

theorem silent_landed {batch : List NewChannelHistoryEvent} {landed : HistoryLog}
    (onlyLands : landed = [] ∨ landed = [.landed batch]) :
    Silent landed := by
  rcases onlyLands with none | once
  · rw [none]
    exact silent_nil
  · rw [once]
    exact ⟨rfl, rfl, rfl, rfl, rfl, rfl⟩

theorem Conserved.flow (conserved : ledger.Conserved log)
    (flow : HistoryFlow ledger after marks) :
    after.Conserved (log ++ marks) := by
  cases flow with
  | rests =>
      exact conserved.silent silent_nil rfl rfl (fun ran => ⟨ran, rfl⟩)
        conserved.idle conserved.waiting
  | lands batch =>
      exact conserved.silent (silent_landed (Or.inr rfl)) rfl rfl
        (fun ran => ⟨ran, rfl⟩) conserved.idle conserved.waiting
  | offers events free => exact conserved.offers events free
  | drops event rest next => exact conserved.drops next _
  | accepts event rest next running => exact conserved.accepts next _
  | counts done =>
      exact conserved.silent ⟨rfl, rfl, rfl, rfl, rfl, rfl⟩ rfl rfl
        (fun ran => ⟨ran, rfl⟩) (fun _ => done) conserved.waiting
  | joins observation running =>
      exact conserved.silent silent_nil rfl rfl
        (fun ran => ⟨ran, by simp⟩) conserved.idle conserved.waiting
  | asks =>
      exact conserved.silent ⟨rfl, rfl, rfl, rfl, rfl, rfl⟩ rfl rfl
        (fun ran => ⟨ran, rfl⟩) conserved.idle
        (by simp [conserved.waiting])
  | closes =>
      exact conserved.silent silent_nil rfl rfl (fun ran => ⟨ran, rfl⟩)
        conserved.idle (by simp [conserved.waiting])
  | closesLate =>
      exact conserved.silent silent_nil rfl rfl (fun ran => ⟨ran, rfl⟩)
        conserved.idle conserved.waiting
  | enters command others waited fewer running =>
      have noEvent : appends [command] = [] :=
        appends_eq_nil_of_mem conserved.waiting waited
      have same : appends (ledger.ahead ++ [command]) =
          appends ledger.ahead := by
        rw [appends_append, noEvent, List.append_nil]
      exact conserved.silent silent_nil rfl rfl (fun ran => ⟨ran, same⟩)
        conserved.idle (appends_eq_nil_of_sublist conserved.waiting fewer)
  | leaves others fewer =>
      exact conserved.silent silent_nil rfl rfl (fun ran => ⟨ran, rfl⟩)
        conserved.idle (appends_eq_nil_of_sublist conserved.waiting fewer)
  | acknowledges batch rest landed running first settled onlyLands =>
      exact conserved.acknowledges running first settled (silent_landed onlyLands)
  | remembers batch rest first =>
      exact conserved.silent silent_nil rfl rfl
        (fun ran => ⟨ran, by simp [first]⟩) conserved.idle
        conserved.waiting
  | records free => exact conserved.records _
  | answers resultTx rest first =>
      exact conserved.silent ⟨rfl, rfl, rfl, rfl, rfl, rfl⟩ rfl rfl
        (fun ran => ⟨ran, by simp [first]⟩) conserved.idle
        conserved.waiting
  | stops allowed =>
      exact conserved.silent silent_nil rfl rfl (fun ran => nomatch ran)
        conserved.idle conserved.waiting

end HistoryLedger

end Ratspeak
