import Ratspeak.Delta.Refinement

/-!
# Pieces and power loss

How a patch is cut does not matter to what is written or where pushing stops.
A checkpoint needs no more than its two numbers: at the end of a block the
decoder keeps nothing but its output, so a fresh applier that starts there
writes what is missing.
-/

namespace Ratspeak.Delta

open Library

variable {Store Error : Type}

/-! ## Pieces -/

theorem push_append (io : DeltaIo Store Error) (first second : List UInt8) :
    push io (first ++ second) =
      push io first >>= fun reported =>
        push io second >>= fun later => pure (later.or reported) := by
  rw [push, Program.through_append]
  congr 1
  funext reported
  exact Program.through_last reported second

/-- Pieces leave what the bytes in one piece leave. -/
theorem feed_eq_push (io : DeltaIo Store Error)
    (pieces : List (List UInt8)) (checkpoint : Option Checkpoint) (session : Session Store) :
    match (push io pieces.flatten).exec session with
    | (.ok reported, reached) =>
        feed io pieces checkpoint session = ⟨reported.or checkpoint, none, reached⟩
    | (.error halt, reached) =>
        (feed io pieces checkpoint session).stopped = some halt ∧
          (feed io pieces checkpoint session).session = reached := by
  induction pieces generalizing checkpoint session with
  | nil => simp [push, Program.through, feed]
  | cons piece rest ih =>
      rw [List.flatten_cons, push_append, Program.exec_bind, feed]
      rcases ran : (push io piece).exec session with ⟨result, reached⟩
      cases result with
      | error halt => exact ⟨rfl, rfl⟩
      | ok reported =>
          have later := ih (reported.or checkpoint) reached
          simp only [Program.exec_bind]
          rcases others : (push io rest.flatten).exec reached with
            ⟨result, final⟩
          rw [others] at later
          cases result with
          | ok last => simpa [Option.or_assoc] using later
          | error halt => exact later

/-- Where the pieces stop, those before the failing one had been taken. -/
theorem feed_stopped (io : DeltaIo Store Error)
    (pieces : List (List UInt8)) (checkpoint : Option Checkpoint) (session : Session Store)
    (stops : (feed io pieces checkpoint session).stopped ≠ none) :
    ∃ taken failing rest, pieces = taken ++ failing :: rest ∧
      (feed io taken checkpoint session).stopped = none ∧
        (feed io taken checkpoint session).checkpoint =
          (feed io pieces checkpoint session).checkpoint := by
  induction pieces generalizing checkpoint session with
  | nil => exact False.elim <| stops rfl
  | cons piece rest ih =>
      rcases ran : (push io piece).exec session with ⟨result, reached⟩
      cases result with
      | error halt =>
          refine ⟨[], piece, rest, rfl, rfl, ?_⟩
          simp only [feed, ran]
      | ok reported =>
          simp only [feed, ran] at stops
          obtain ⟨taken, failing, others, isRest, goesOn, same⟩ :=
            ih (reported.or checkpoint) reached stops
          refine ⟨piece :: taken, failing, others, ?_, ?_, ?_⟩
          · rw [isRest, List.cons_append]
          · simpa only [feed, ran] using goesOn
          · simpa only [feed, ran] using same

/-! ## Runs of the decoder -/

section Runs

variable {io : DeltaIo Store Error} {base : List UInt8} {frame : Frame}

/-- A report of a run is the checkpoint at the end of some block. -/
def ReportsRun (base : List UInt8) (frame : Frame) (offset : Nat)
    (decoder : Decoder) (patch : List UInt8) (point : Checkpoint) : Prop :=
  ∃ count reached, count ≤ patch.length ∧
    decoder.run base frame.target (patch.take count) = some reached ∧
      point = ⟨(offset + count) % 2 ^ 32, reached.made.length⟩ ∧
        reached = .after frame.target reached.made

theorem through_refines (faithful : io.Faithful base)
    (isBase : frame.base = base.length) (decoder : Decoder) (offset : Nat)
    (last : Option Checkpoint) (patch : List UInt8) :
    Program.Meets
      (fun session =>
        Waiting frame session ∧ Refines base frame offset decoder session)
      (Program.through (pushByte io) last patch)
      (fun reported session =>
        ∃ reached, decoder.run base frame.target patch = some reached ∧
          (Waiting frame session ∧ Refines base frame (offset + patch.length) reached session) ∧
          ∀ point, reported = some point →
            last = some point ∨ ReportsRun base frame offset decoder patch point)
      (fun _ _ =>
        io.Serves base → decoder.run base frame.target patch = none) := by
  induction patch generalizing decoder offset last with
  | nil =>
      apply Program.meets_pure
      intro session held
      exact ⟨decoder, rfl, held, fun point same => Or.inl same⟩
  | cons byte rest ih =>
      rw [Program.through]
      apply ((((pushByte_meets io byte).both
        (pushByte_refines faithful isBase decoder offset byte)).weaken
          (fun _ held => ⟨held.1, held⟩) (fun _ _ held => held)
          (fun _ _ failed => failed.2)).failing _).bind
      · intro reported session held
        obtain ⟨waits, reached, isStep, refines, reports⟩ := held
        apply ((ih reached (offset + 1)
          (reported.or last)).weaken (fun _ same => same) _ _) session
            ⟨waits, refines⟩
        · intro later state held
          obtain ⟨final, isRun, ⟨stillWaits, stillRefines⟩, stillReports⟩ :=
            held
          have counts : offset + 1 + rest.length =
              offset + (byte :: rest).length := by
            rw [List.length_cons]
            omega
          rw [counts] at stillRefines
          refine ⟨final, ?_, ⟨stillWaits, stillRefines⟩, ?_⟩
          · simp only [Decoder.run, isStep, isRun]
          · intro point isPoint
            rcases stillReports point isPoint with now | run
            · cases reported with
              | none => exact Or.inl now
              | some earlier =>
                  simp only [Option.some_or, Option.some.injEq] at now
                  obtain ⟨same, isEnd⟩ := reports earlier rfl
                  refine Or.inr ⟨1, reached, ?_, ?_, ?_, isEnd⟩
                  · simp
                  · simp [Decoder.run, isStep]
                  · rw [← now, same]
            · obtain ⟨count, atEnd, within, runs, same, isEnd⟩ := run
              refine Or.inr ⟨count + 1, atEnd, ?_, ?_, ?_, isEnd⟩
              · simpa using within
              · simp only [List.take_succ_cons, Decoder.run, isStep, runs]
              · rw [same]
                congr 2
                omega
        · intro _ _ stopped serves
          simp only [Decoder.run, isStep, stopped serves]
      · intro _ _ stopped serves
        simp only [Decoder.run, stopped serves]

/-! ## Ends -/

private theorem done_of_step {target : Nat} {decoder : Decoder}
    {byte : UInt8} {made : List UInt8}
    (isStep : decoder.step base target byte = some (.done made)) :
    made.length = target := by
  have ends {reached : List UInt8}
      (isEnd : some (Decoder.after target reached) = some (.done made)) :
      made.length = target := by
    simp only [Decoder.after, Option.some.injEq] at isEnd
    split at isEnd
    · rename_i whole
      cases isEnd
      exact whole
    · cases isEnd
  cases decoder with
  | header seen =>
      simp only [Decoder.step] at isStep
      split at isStep
      · cases isStep
      · split at isStep
        · cases isStep
        · cases isStep
  | blockHeader earlier seen =>
      simp only [Decoder.step] at isStep
      split at isStep
      · cases isStep
      · split at isStep
        · cases isStep
        · cases isStep
  | body packedLeft blockEnd work past waiting =>
      simp only [Decoder.step] at isStep
      split at isStep
      · cases isStep
      · split at isStep
        · cases isStep
        · split at isStep
          · exact ends isStep
          · cases isStep
  | done earlier => cases isStep

/-- A decoder that reaches the end has made the whole target. -/
theorem length_of_run_done {target : Nat} {decoder : Decoder} {patch made : List UInt8}
    (starts : ∀ earlier, decoder = .done earlier → earlier.length = target)
    (runs : decoder.run base target patch = some (.done made)) :
    made.length = target := by
  induction patch generalizing decoder with
  | nil =>
      simp only [Decoder.run, Option.some.injEq] at runs
      exact starts made runs
  | cons byte rest ih =>
      simp only [Decoder.run] at runs
      cases isStep : decoder.step base target byte with
      | none =>
          rw [isStep] at runs
          cases runs
      | some reached =>
          rw [isStep] at runs
          apply ih _ runs
          intro earlier isDone
          rw [isDone] at isStep
          exact done_of_step isStep

/-- A session that is complete has written what its decoder made. -/
theorem written_of_done {offset : Nat} {decoder : Decoder} {session : Session Store}
    (waits : Waiting frame session) (refines : Refines base frame offset decoder session)
    (complete : session.applier.stage = .done)
    (whole : ∀ made, decoder = .done made → made.length = frame.target) :
    ∃ made, decoder = .done made ∧
      written session.log = made.drop frame.start := by
  obtain ⟨_, related⟩ := refines
  simp only [Waiting, complete] at waits
  cases decoder with
  | header seen =>
      simp only [complete] at related
      cases related.1
  | blockHeader made seen =>
      simp only [complete] at related
      cases related.1
  | body packedLeft blockEnd work past waiting =>
      simp only [complete] at related
      cases related.1
  | done made =>
      obtain ⟨_, still, work, isMade, works⟩ := related
      have writes := works.writes
      have length := whole made rfl
      have completes := waits.completes complete
      rw [isMade] at writes
      have sizes := congrArg List.length writes
      simp only [List.length_append, List.length_drop] at sizes
      have empty : session.applier.out = [] :=
        List.eq_nil_of_length_eq_zero (by omega)
      rw [empty, List.append_nil] at writes
      exact ⟨made, rfl, writes⟩

theorem refines_new (base : List UInt8) (target : Nat) (store : Store) :
    Refines base ⟨target, base.length, 0⟩ 0 (.header [])
      (.start (.new target base.length) store) := by
  refine ⟨rfl, rfl, rfl, (DeltaApplier.new target base.length).still, ⟨.tag, 0, []⟩, rfl, ?_⟩
  constructor
  · rfl
  · exact Nat.le_refl 0
  · rfl
  · rfl
  · rfl
  · rfl

/-- A fresh applier at the end of a block stands where the decoder does. -/
theorem refines_resume (base : List UInt8) (target offset : Nat)
    (made : List UInt8) (store : Store) (within : made.length ≤ target) :
    Refines base ⟨target, base.length, made.length⟩ offset
      (.after target made)
      (.start
        (.resume target base.length ⟨offset % 2 ^ 32, made.length⟩)
        store) := by
  have settled (applier : DeltaApplier)
      (isResumed : applier = .resume target base.length ⟨offset % 2 ^ 32, made.length⟩) :
      Settled base made.length made (.start applier store) := by
    refine ⟨applier.still, ⟨.tag, 0, made⟩, rfl, ?_⟩
    rw [isResumed]
    constructor
    · simp [Session.start, written, DeltaApplier.resume, DeltaApplier.new]
    · exact Nat.le_refl _
    · rfl
    · rfl
    · rfl
    · rfl
  refine ⟨rfl, ?_⟩
  by_cases finished : made.length = target
  · have reached : target ≤ made.length := Nat.le_of_eq finished.symm
    simp only [Decoder.after, if_pos finished]
    refine ⟨?_, settled _ rfl⟩
    simp only [Session.start, DeltaApplier.resume, if_pos reached]
  · have notReached : ¬ target ≤ made.length := by omega
    simp only [Decoder.after, if_neg finished]
    refine ⟨?_, rfl, settled _ rfl⟩
    simp only [Session.start, DeltaApplier.resume, if_neg notReached]
    rfl

end Runs

/-! ## Resuming -/

variable {Later Failure : Type}

/-- From the checkpoint of a block of a patch that is accepted, the rest of
the patch writes the rest of the target. -/
theorem resume_of_accepted {io : DeltaIo Store Error} {base : List UInt8}
    (faithful : io.Faithful base) {target : Nat} (targetFits : target < u32Max)
    (baseFits : base.length < 2 ^ 32) {store : Store} {patch : List UInt8}
    {reported : Option Checkpoint} {reached : Session Store} (accepted :
      (push io patch).exec (.start (.new target base.length) store) = (.ok reported, reached))
    (complete : reached.applier.stage = .done)
    {point : Checkpoint}
    (reports : ReportsRun base ⟨target, base.length, 0⟩ 0 (.header []) patch point)
    {later : DeltaIo Later Failure} (serves : later.Serves base)
    (laterStore : Later) :
    ∃ boundary, boundary ≤ patch.length ∧
      point.patchOffset = boundary % 2 ^ 32 ∧
        ∃ resumed report,
          (push later (patch.drop boundary)).exec
              (.start (.resume target base.length point) laterStore) =
            (.ok report, resumed) ∧
          resumed.applier.stage = .done ∧
            written resumed.log = (written reached.log).drop
              point.output := by
  have starts : Waiting ⟨target, base.length, 0⟩
      (.start (.new target base.length) store) :=
    waiting_begin targetFits baseFits none store
  have held := (through_refines faithful rfl (.header []) 0 none patch).ok
    ⟨starts, refines_new base target store⟩ accepted
  obtain ⟨final, isRun, ⟨waits, refines⟩, _⟩ := held
  have wholeTarget (made : List UInt8) (isDone : final = .done made) :
      made.length = target := by
    rw [isDone] at isRun
    exact length_of_run_done (fun _ never => by cases never) isRun
  obtain ⟨made, isDone, isWritten⟩ :=
    written_of_done waits refines complete wholeTarget
  obtain ⟨boundary, atEnd, within, runs, isPoint, isEnd⟩ := reports
  have length := wholeTarget made isDone
  have splits := Decoder.run_append base target (.header [])
    (patch.take boundary) (patch.drop boundary)
  rw [List.take_append_drop, isRun, runs, Option.bind_some, isDone] at splits
  have fits : atEnd.made.length ≤ target := by
    rw [← length]
    exact (Decoder.made_run splits.symm).length_le
  have resumedStarts : Waiting ⟨target, base.length, atEnd.made.length⟩
      (.start (.resume target base.length point) laterStore) := by
    rw [isPoint]
    exact waiting_begin targetFits baseFits
      (some ⟨(0 + boundary) % 2 ^ 32, atEnd.made.length⟩) laterStore
  have resumedRefines : Refines base
      ⟨target, base.length, atEnd.made.length⟩ boundary atEnd
      (.start (.resume target base.length point) laterStore) := by
    rw [isPoint, Nat.zero_add, isEnd, Decoder.made_after]
    exact refines_resume base target boundary atEnd.made laterStore fits
  have follows := through_refines serves.toFaithful rfl atEnd boundary none
    (patch.drop boundary) _ ⟨resumedStarts, resumedRefines⟩
  refine ⟨boundary, within, by rw [isPoint, Nat.zero_add], ?_⟩
  rcases ran : (push later (patch.drop boundary)).exec
      (.start (.resume target base.length point) laterStore) with
    ⟨result, resumed⟩
  rw [push] at ran
  rw [ran] at follows
  cases result with
  | error halt =>
      have stopped := follows serves
      rw [← splits] at stopped
      cases stopped
  | ok report =>
      obtain ⟨last, lastRun, ⟨lastWaits, lastRefines⟩, _⟩ := follows
      rw [← splits] at lastRun
      cases lastRun
      have isComplete : resumed.applier.stage = .done :=
        lastRefines.2.1
      obtain ⟨lastMade, isLast, lastWritten⟩ :=
        written_of_done lastWaits lastRefines isComplete
          (fun _ same => by
            cases same
            exact length)
      cases isLast
      refine ⟨resumed, report, rfl, isComplete, ?_⟩
      rw [lastWritten, isWritten, isPoint]
      rfl

/-! ## Any cut, and any power loss -/

private theorem feed_one (io : DeltaIo Store Error) (patch : List UInt8)
    (session : Session Store) :
    feed io [patch] none session =
      match (push io patch).exec session with
      | (.ok reported, reached) => ⟨reported, none, reached⟩
      | (.error halt, reached) => ⟨none, some halt, reached⟩ := by
  simp only [feed]
  rcases (push io patch).exec session with ⟨result, reached⟩
  cases result with
  | ok reported => simp
  | error halt => rfl

/-- Pieces of a patch against the patch in one piece.  Only an error makes a
difference: it hides the checkpoints of its own call, so pieces report the
one that the pieces before the failing one reach. -/
theorem feed_flatten (io : DeltaIo Store Error)
    (pieces : List (List UInt8)) (session : Session Store) :
    let whole := feed io [pieces.flatten] none session
    let cut := feed io pieces none session
    cut.session = whole.session ∧ cut.stopped = whole.stopped ∧
      (whole.stopped = none → cut.checkpoint = whole.checkpoint) ∧
      (whole.stopped ≠ none → whole.checkpoint = none ∧
        ∃ taken failing rest, pieces = taken ++ failing :: rest ∧
          (feed io [taken.flatten] none session).stopped = none ∧
            cut.checkpoint =
              (feed io [taken.flatten] none session).checkpoint) := by
  have agrees := feed_eq_push io pieces none session
  rw [feed_one]
  rcases ran : (push io pieces.flatten).exec session with ⟨result, reached⟩
  rw [ran] at agrees
  cases result with
  | ok reported =>
      simp only [Option.or_none] at agrees
      simp [agrees]
  | error halt =>
      refine ⟨agrees.2, agrees.1, fun never => (Option.some_ne_none halt
        never).elim, fun _ => ⟨rfl, ?_⟩⟩
      have stops : (feed io pieces none session).stopped ≠ none := by
        rw [agrees.1]
        exact Option.some_ne_none halt
      obtain ⟨taken, failing, rest, isPieces, goesOn, same⟩ :=
        feed_stopped io pieces none session stops
      refine ⟨taken, failing, rest, isPieces, ?_⟩
      have before := feed_eq_push io taken none session
      rw [feed_one]
      rcases earlier : (push io taken.flatten).exec session with
        ⟨result, middle⟩
      rw [earlier] at before
      cases result with
      | ok reported =>
          simp only [Option.or_none] at before
          rw [before] at same
          exact ⟨rfl, same.symm⟩
      | error halt =>
          rw [before.1] at goesOn
          cases goesOn

/-- A checkpoint that pieces report is one of the whole patch they start. -/
theorem reportsRun_of_feed {io : DeltaIo Store Error} {base : List UInt8}
    (faithful : io.Faithful base) {frame : Frame}
    (isBase : frame.base = base.length) {decoder : Decoder} {offset : Nat}
    {session : Session Store} (waits : Waiting frame session)
    (refines : Refines base frame offset decoder session)
    {fed : List (List UInt8)} {rest : List UInt8}
    {reported : Option Checkpoint} {reached : Session Store}
    (accepted : (push io (fed.flatten ++ rest)).exec session = (.ok reported, reached))
    {point : Checkpoint} (reports : (feed io fed none session).checkpoint = some point) :
    ReportsRun base frame offset decoder (fed.flatten ++ rest) point := by
  have agrees := feed_eq_push io fed none session
  rw [push_append, Program.exec_bind] at accepted
  rcases ran : (push io fed.flatten).exec session with ⟨result, middle⟩
  rw [ran] at agrees accepted
  cases result with
  | error halt => cases accepted
  | ok report =>
      simp only [Option.or_none] at agrees
      rw [agrees] at reports
      have held := (through_refines faithful isBase decoder offset none
        fed.flatten).ok ⟨waits, refines⟩ ran
      obtain ⟨_, _, _, all⟩ := held
      rcases all point reports with never | run
      · cases never
      · obtain ⟨count, atEnd, within, runs, isPoint, isEnd⟩ := run
        refine ⟨count, atEnd, ?_, ?_, isPoint, isEnd⟩
        · rw [List.length_append]
          omega
        · rw [List.take_append_of_le_length within]
          exact runs

/-- Decoding depends neither on the cut nor on a power loss: pieces leave
the session, the log and the error that one piece leaves; and from any
checkpoint of an accepted patch, a fresh applier with the rest of the patch,
in any pieces, completes and writes exactly the rest of the target. -/
theorem feed_pieces_and_resume (io : DeltaIo Store Error) (store : Store)
    (targetLen baseLen : UInt32) (targetFits : targetLen.toNat < u32Max)
    (pieces : List (List UInt8)) :
    let start :=
      Session.start (.new targetLen.toNat baseLen.toNat) store
    let whole := feed io [pieces.flatten] none start
    let cut := feed io pieces none start
    (cut.session = whole.session ∧ cut.stopped = whole.stopped ∧
      (whole.stopped = none → cut.checkpoint = whole.checkpoint) ∧
      (whole.stopped ≠ none → whole.checkpoint = none ∧
        ∃ taken failing rest, pieces = taken ++ failing :: rest ∧
          (feed io [taken.flatten] none start).stopped = none ∧
            cut.checkpoint = (feed io [taken.flatten] none start).checkpoint)) ∧
    ∀ (Later Failure : Type) (later : DeltaIo Later Failure)
      (laterStore : Later) (base : List UInt8),
      base.length = baseLen.toNat → io.Faithful base → later.Serves base →
      whole.stopped = none → whole.session.applier.complete = true →
      ∀ (fed : List (List UInt8)) (point : Checkpoint),
        fed.flatten <+: pieces.flatten →
        (feed io fed none start).checkpoint = some point →
        ∃ boundary, boundary ≤ pieces.flatten.length ∧
          point.patchOffset = boundary % 2 ^ 32 ∧
          ∀ rest : List (List UInt8),
            rest.flatten = pieces.flatten.drop boundary →
            let resumed := feed later rest none
              (.start (.resume targetLen.toNat baseLen.toNat point) laterStore)
            resumed.stopped = none ∧
              resumed.session.applier.complete = true ∧
                written resumed.session.log =
                  (written whole.session.log).drop point.output := by
  refine ⟨feed_flatten io pieces _, ?_⟩
  intro Later Failure later laterStore base length faithful serves goesOn
    complete fed point isPrefix reports
  rw [← length] at goesOn complete reports ⊢
  have baseFits : base.length < 2 ^ 32 := by
    rw [length]
    exact baseLen.toNat_lt
  rw [feed_one] at goesOn complete ⊢
  rcases ran : (push io pieces.flatten).exec
      (.start (.new targetLen.toNat base.length) store) with
    ⟨result, reached⟩
  rw [ran] at goesOn complete
  cases result with
  | error halt => cases goesOn
  | ok reported =>
      obtain ⟨others, isWhole⟩ := isPrefix
      have isComplete : reached.applier.stage = .done := by
        simpa [DeltaApplier.complete] using complete
      have accepted := ran
      rw [← isWhole] at accepted
      have run := reportsRun_of_feed faithful rfl
        (waiting_begin targetFits baseFits none store)
        (refines_new base targetLen.toNat store) accepted reports
      rw [isWhole] at run
      obtain ⟨boundary, within, isOffset, resumed, report, resumes,
        isDone, isWritten⟩ :=
        resume_of_accepted faithful targetFits baseFits ran isComplete run serves laterStore
      refine ⟨boundary, within, isOffset, ?_⟩
      intro rest isRest
      have agrees := feed_eq_push later rest none
        (.start (.resume targetLen.toNat base.length point) laterStore)
      rw [isRest, resumes] at agrees
      rw [agrees]
      refine ⟨rfl, ?_, isWritten⟩
      simp only [DeltaApplier.complete, isDone, decide_true]

/-- A patch of one block is resumed behind it.  A boundary before the last one
lies behind a whole block, which is too long to evaluate. -/
theorem resume_insert :
    let resumed := feed (vecIo []) [] none (.start (.resume 3 0 ⟨26, 3⟩) [])
    resumed.stopped = none ∧ resumed.session.applier.complete = true := by
  have three : (3 : UInt32).toNat = 3 := rfl
  have zero : (0 : UInt32).toNat = 0 := rfl
  have both := feed_pieces_and_resume (vecIo []) [] 3 0 (by decide)
    [insertPatch, []]
  rw [three, zero] at both
  have serves := vecIo_serves []
  obtain ⟨boundary, within, isOffset, resumes⟩ :=
    both.2 (List UInt8) Unit (vecIo []) [] [] rfl serves.toFaithful serves
      (by decide +kernel) (by decide +kernel) [insertPatch] ⟨26, 3⟩
      (by decide) (by decide +kernel)
  have length : [insertPatch, []].flatten.length = 26 := by decide
  have isEnd : boundary = 26 := by
    simp only at isOffset
    omega
  have resumed := resumes [] (by rw [isEnd]; decide)
  exact ⟨resumed.1, resumed.2.1⟩

/-- Pieces report the checkpoint of a block that is followed by a byte too
many; one piece reports none. -/
theorem checkpoint_hidden_by_error :
    let start := Session.start (.new 3 0) []
    (feed (vecIo []) [insertPatch, [0]] none start).checkpoint =
        some ⟨26, 3⟩ ∧
      (feed (vecIo []) [[insertPatch, [0]].flatten] none start).checkpoint =
        none := by
  decide +kernel

end Ratspeak.Delta
