import Ratspeak.Library.TokenBucket
import Ratspeak.Update.Uploader

/-!
# Duty-cycle pacing

The uploader may only use a share of the airtime of its band.  The pacer is a
bucket of airtime that starts with one hour's budget and refills all the time.
It counts in units of a millisecond times an hour, so that a refill is a
product and nothing is rounded away, and it saturates where a sum or a product
leaves its word.

The callers ask for the delay before each chunk and spend the chunk's airtime
once the delay is zero.
-/

namespace Ratspeak

open Library

def saturatingMul (bits left right : Nat) : Nat :=
  min (left * right) (2 ^ bits - 1)

structure Pacer where
  budgetMsPerHour : Nat
  /-- Airtime available, scaled by the hour so refills stay exact. -/
  scaled : Nat
  updatedMs : Nat
deriving DecidableEq, Repr

def hourMs : Nat := 3600000

namespace Pacer

def new (dutyTenthsPercent nowMs : Nat) : Option Pacer := do
  let product ← checkedMul 64 hourMs dutyTenthsPercent
  let budgetMsPerHour := product / 1000
  some
    { budgetMsPerHour
      scaled := saturatingMul 64 budgetMsPerHour hourMs
      updatedMs := nowMs }

def unlimited (pacer : Pacer) : Bool :=
  pacer.budgetMsPerHour == 0

def refill (pacer : Pacer) (nowMs : Nat) : Pacer :=
  let elapsed := nowMs - pacer.updatedMs
  { pacer with
    updatedMs := nowMs
    scaled := min
      (saturatingAdd 64 pacer.scaled (saturatingMul 64 elapsed pacer.budgetMsPerHour))
      (saturatingMul 64 pacer.budgetMsPerHour hourMs) }

/-- The delay until the airtime is there, and the pacer refilled.  There is
none when the airtime exceeds a full bucket. -/
def delayMs (pacer : Pacer) (airtimeMs nowMs : Nat) :
    Option Nat × Pacer :=
  if pacer.unlimited then (some 0, pacer)
  else if airtimeMs > pacer.budgetMsPerHour then (none, pacer)
  else
    let pacer := pacer.refill nowMs
    let price := saturatingMul 64 airtimeMs hourMs
    (some (divCeil (price - pacer.scaled) pacer.budgetMsPerHour), pacer)

def spend (pacer : Pacer) (airtimeMs nowMs : Nat) : Pacer :=
  if pacer.unlimited then pacer
  else
    let pacer := pacer.refill nowMs
    { pacer with
      scaled := pacer.scaled - saturatingMul 64 airtimeMs hourMs }

end Pacer

/-! ## Callers -/

inductive PacerCall where
  | delayMs (airtimeMs nowMs : Nat)
  | spend (airtimeMs nowMs : Nat)
deriving DecidableEq, Repr

namespace PacerCall

def nowMs : PacerCall → Nat
  | .delayMs _ nowMs => nowMs
  | .spend _ nowMs => nowMs

def isSpend : PacerCall → Bool
  | .delayMs _ _ => false
  | .spend _ _ => true

end PacerCall

/-- The airtime spent from `since` to `upto`, both included. -/
def airtimeSpent (since upto : Nat) : List PacerCall → Nat
  | [] => 0
  | .delayMs _ _ :: rest => airtimeSpent since upto rest
  | .spend airtimeMs nowMs :: rest =>
      (if since ≤ nowMs ∧ nowMs ≤ upto then airtimeMs else 0) + airtimeSpent since upto rest

/-- A pacer in use: the time of the last call, and the airtimes for which the
delay has been zero since something was spent last. -/
structure Pacing where
  pacer : Pacer
  clockMs : Nat
  cleared : List Nat
deriving DecidableEq, Repr

namespace Pacing

def start (pacer : Pacer) (nowMs : Nat) : Pacing :=
  { pacer, clockMs := nowMs, cleared := [] }

def step (pacing : Pacing) : PacerCall → Pacing
  | .delayMs airtimeMs nowMs =>
      let answer := pacing.pacer.delayMs airtimeMs nowMs
      { pacer := answer.2
        clockMs := nowMs
        cleared :=
          if answer.1 = some 0 then airtimeMs :: pacing.cleared
          else pacing.cleared }
  | .spend airtimeMs nowMs =>
      { pacer := pacing.pacer.spend airtimeMs nowMs
        clockMs := nowMs
        cleared := [] }

/-- Time does not run backwards, and no more is spent than an airtime for
which the delay was zero. -/
def Paced (pacing : Pacing) (call : PacerCall) : Prop :=
  pacing.clockMs ≤ call.nowMs ∧
    match call with
    | .delayMs _ _ => True
    | .spend airtimeMs _ => ∃ asked ∈ pacing.cleared, airtimeMs ≤ asked

instance (pacing : Pacing) (call : PacerCall) :
    Decidable (pacing.Paced call) := by
  unfold Paced
  cases call with
  | delayMs airtimeMs nowMs => exact inferInstanceAs (Decidable (_ ∧ True))
  | spend airtimeMs nowMs => exact inferInstanceAs (Decidable (_ ∧ ∃ asked ∈ _, _))

end Pacing

/-! ## The pacer as a bucket -/

namespace Pacer

/-- The bucket in exact numbers that the pacer computes with. -/
def bucket (pacer : Pacer) : TokenBucket :=
  { rate := pacer.budgetMsPerHour
    capacity := pacer.budgetMsPerHour * hourMs
    level := pacer.scaled
    updated := pacer.updatedMs }

/-- Pacing is on, a full bucket fits its word, and no more is held. -/
structure Legal (pacer : Pacer) : Prop where
  paced : 0 < pacer.budgetMsPerHour
  fits : pacer.budgetMsPerHour * hourMs ≤ 2 ^ 64 - 1
  held : pacer.scaled ≤ pacer.budgetMsPerHour * hourMs

variable {pacer : Pacer} {airtimeMs nowMs : Nat}

theorem not_unlimited (legal : pacer.Legal) : pacer.unlimited = false := by
  have paced := legal.paced
  simp only [unlimited, beq_eq_false_iff_ne]
  omega

/-- What saturates in a refill is cut off by the capacity all the same. -/
theorem bucket_refill (legal : pacer.Legal) (nowMs : Nat) :
    (pacer.refill nowMs).bucket = pacer.bucket.refill nowMs := by
  have fits := legal.fits
  simp only [bucket, refill, TokenBucket.refill, saturatingAdd,
    saturatingMul, TokenBucket.mk.injEq, true_and, and_true]
  omega

theorem legal_refill (legal : pacer.Legal) (nowMs : Nat) :
    (pacer.refill nowMs).Legal where
  paced := legal.paced
  fits := legal.fits
  held := by
    have bounded := TokenBucket.level_refill_le pacer.bucket nowMs
    rw [← bucket_refill legal] at bounded
    exact bounded

theorem scaled_refill (legal : pacer.Legal) (nowMs : Nat) :
    (pacer.refill nowMs).scaled = (pacer.bucket.refill nowMs).level := by
  rw [← bucket_refill legal]
  rfl

theorem scaled_le_refill (legal : pacer.Legal) (nowMs : Nat) :
    pacer.scaled ≤ (pacer.bucket.refill nowMs).level := by
  have held : pacer.bucket.level ≤ pacer.bucket.capacity := legal.held
  exact TokenBucket.level_le_refill nowMs held

theorem delayMs_of_lt (legal : pacer.Legal)
    (large : pacer.budgetMsPerHour < airtimeMs) (nowMs : Nat) :
    pacer.delayMs airtimeMs nowMs = (none, pacer) := by
  simp [delayMs, not_unlimited legal, large]

theorem delayMs_of_le (legal : pacer.Legal)
    (small : airtimeMs ≤ pacer.budgetMsPerHour) (nowMs : Nat) :
    pacer.delayMs airtimeMs nowMs =
      (some (pacer.bucket.wait (airtimeMs * hourMs) nowMs),
        pacer.refill nowMs) := by
  have price : saturatingMul 64 airtimeMs hourMs = airtimeMs * hourMs := by
    apply Nat.min_eq_left
    exact Nat.le_trans (Nat.mul_le_mul_right _ small) legal.fits
  simp only [delayMs, not_unlimited legal, Nat.not_lt.mpr small, price, scaled_refill legal]
  rfl

theorem bucket_spend (legal : pacer.Legal) (airtimeMs nowMs : Nat) :
    (pacer.spend airtimeMs nowMs).bucket =
      pacer.bucket.withdraw (airtimeMs * hourMs) nowMs := by
  have held := (legal_refill legal nowMs).held
  have fits := (legal_refill legal nowMs).fits
  have level : (pacer.refill nowMs).scaled -
        saturatingMul 64 airtimeMs hourMs =
      (pacer.refill nowMs).scaled - airtimeMs * hourMs := by
    unfold saturatingMul
    omega
  simp only [spend, not_unlimited legal, level, TokenBucket.withdraw]
  rw [← bucket_refill legal]
  rfl

theorem legal_of_bucket {later : Pacer} (legal : pacer.Legal)
    (same : later.budgetMsPerHour = pacer.budgetMsPerHour)
    (held : later.bucket.level ≤ pacer.bucket.capacity) :
    later.Legal := by
  constructor
  · rw [same]
    exact legal.paced
  · rw [same]
    exact legal.fits
  · rw [same]
    exact held

theorem legal_spend (legal : pacer.Legal) (airtimeMs nowMs : Nat) :
    (pacer.spend airtimeMs nowMs).Legal := by
  have whole := bucket_spend legal airtimeMs nowMs
  have bounded := TokenBucket.level_withdraw_le pacer.bucket (airtimeMs * hourMs) nowMs
  have same := congrArg TokenBucket.rate whole
  rw [← whole] at bounded
  exact legal_of_bucket legal same bounded

/-- For every duty up to the whole hour the pacer starts legal, with a budget
of 3.6 seconds an hour for each tenth of a percent. -/
theorem new_eq {dutyTenthsPercent : Nat} (paced : 0 < dutyTenthsPercent)
    (bounded : dutyTenthsPercent ≤ 1000) (nowMs : Nat) :
    ∃ pacer, new dutyTenthsPercent nowMs = some pacer ∧ pacer.Legal ∧
      pacer.budgetMsPerHour = 3600 * dutyTenthsPercent ∧
      pacer.updatedMs = nowMs := by
  have product : hourMs * dutyTenthsPercent =
      3600 * dutyTenthsPercent * 1000 := by
    unfold hourMs
    omega
  have computed : checkedMul 64 hourMs dutyTenthsPercent =
      some (3600 * dutyTenthsPercent * 1000) := by
    rw [← product]
    refine checkedMul_eq ?_
    omega
  have budget : 3600 * dutyTenthsPercent * 1000 / 1000 =
      3600 * dutyTenthsPercent :=
    Nat.mul_div_cancel _ (by decide)
  have fits : 3600 * dutyTenthsPercent * hourMs ≤ 2 ^ 64 - 1 := by
    unfold hourMs
    omega
  let pacer : Pacer :=
    { budgetMsPerHour := 3600 * dutyTenthsPercent
      scaled := saturatingMul 64 (3600 * dutyTenthsPercent) hourMs
      updatedMs := nowMs }
  have made : new dutyTenthsPercent nowMs = some pacer := by
    simp only [new, computed, Option.bind_eq_bind, Option.bind_some, budget, pacer]
  have started : pacer.Legal := by
    refine ⟨?_, fits, Nat.min_le_left _ _⟩
    exact Nat.mul_pos (by decide) paced
  exact ⟨pacer, made, started, rfl, rfl⟩

end Pacer

/-! ## What holds while the pacer is in use -/

namespace Pacing

/-- The pacer is legal, its clock is not ahead, and whatever was cleared can
still be paid. -/
structure Sound (pacing : Pacing) : Prop where
  legal : pacing.pacer.Legal
  started : pacing.pacer.updatedMs ≤ pacing.clockMs
  payable : ∀ asked ∈ pacing.cleared, asked * hourMs ≤ pacing.pacer.scaled

/-- What a call takes out of the bucket; a delay that is refused does not
even refill it. -/
def draws (budgetMsPerHour : Nat) : List PacerCall → List TokenBucket.Draw
  | [] => []
  | .delayMs airtimeMs nowMs :: rest =>
      if airtimeMs > budgetMsPerHour then draws budgetMsPerHour rest
      else (0, nowMs) :: draws budgetMsPerHour rest
  | .spend airtimeMs nowMs :: rest =>
      (airtimeMs * hourMs, nowMs) :: draws budgetMsPerHour rest

theorem drawn_draws (budgetMsPerHour since upto : Nat) (calls : List PacerCall) :
    TokenBucket.drawn since upto (draws budgetMsPerHour calls) =
      airtimeSpent since upto calls * hourMs := by
  induction calls with
  | nil => exact (Nat.zero_mul hourMs).symm
  | cons call rest ih =>
      cases call with
      | delayMs airtimeMs nowMs =>
          by_cases large : airtimeMs > budgetMsPerHour
          · simp only [draws, if_pos large, airtimeSpent, ih]
          · simp only [draws, if_neg large, airtimeSpent,
              TokenBucket.drawn, ih, ite_self,
              Nat.zero_add]
      | spend airtimeMs nowMs =>
          simp only [draws, airtimeSpent, TokenBucket.drawn,
            ih, Nat.add_mul, ite_mul, Nat.zero_mul]

variable {pacing : Pacing}

theorem sound_delayMs {airtimeMs nowMs : Nat} (sound : pacing.Sound)
    (ordered : pacing.clockMs ≤ nowMs) :
    (pacing.step (.delayMs airtimeMs nowMs)).Sound := by
  have started : pacing.pacer.updatedMs ≤ nowMs :=
    Nat.le_trans sound.started ordered
  by_cases small : airtimeMs ≤ pacing.pacer.budgetMsPerHour
  · have answer := Pacer.delayMs_of_le sound.legal small nowMs
    have level := Pacer.scaled_refill sound.legal nowMs
    have grows : pacing.pacer.scaled ≤
        (pacing.pacer.refill nowMs).scaled := by
      rw [level]
      exact Pacer.scaled_le_refill sound.legal nowMs
    have before : ∀ asked ∈ pacing.cleared,
        asked * hourMs ≤ (pacing.pacer.refill nowMs).scaled := by
      intro asked among
      exact Nat.le_trans (sound.payable asked among) grows
    constructor
    · simp only [step, answer]
      exact Pacer.legal_refill sound.legal nowMs
    · simp only [step, answer]
      exact Nat.le_refl nowMs
    · simp only [step, answer]
      by_cases free : some (pacing.pacer.bucket.wait (airtimeMs * hourMs) nowMs) = some 0
      · rw [if_pos free]
        have affordable : airtimeMs * hourMs ≤
            (pacing.pacer.refill nowMs).scaled := by
          rw [level]
          exact (TokenBucket.wait_eq_zero_iff sound.legal.paced).mp (Option.some.inj free)
        intro asked among
        rcases List.mem_cons.mp among with rfl | earlier
        · exact affordable
        · exact before asked earlier
      · rw [if_neg free]
        exact before
  · have answer := Pacer.delayMs_of_lt sound.legal
      (Nat.lt_of_not_le small) nowMs
    constructor
    · simp only [step, answer]
      exact sound.legal
    · simp only [step, answer]
      exact started
    · simp only [step, answer]
      exact sound.payable

theorem sound_spend {airtimeMs nowMs : Nat} (sound : pacing.Sound) :
    (pacing.step (.spend airtimeMs nowMs)).Sound := by
  have whole := Pacer.bucket_spend sound.legal airtimeMs nowMs
  have now := congrArg TokenBucket.updated whole
  constructor
  · exact Pacer.legal_spend sound.legal airtimeMs nowMs
  · exact Nat.le_of_eq now
  · intro asked among
    cases among

theorem sound_step {call : PacerCall} (sound : pacing.Sound)
    (paced : pacing.Paced call) : (pacing.step call).Sound := by
  cases call with
  | delayMs airtimeMs nowMs => exact sound_delayMs sound paced.1
  | spend airtimeMs nowMs => exact sound_spend sound

/-- A permitted spend is one that the bucket can pay. -/
theorem pays_spend {airtimeMs nowMs : Nat} (sound : pacing.Sound)
    (paced : pacing.Paced (.spend airtimeMs nowMs)) :
    pacing.pacer.bucket.Pays (airtimeMs * hourMs, nowMs) := by
  obtain ⟨ordered, asked, among, covers⟩ := paced
  refine ⟨Nat.le_trans sound.started ordered, ?_⟩
  calc
    airtimeMs * hourMs ≤ asked * hourMs := Nat.mul_le_mul_right _ covers
    _ ≤ pacing.pacer.scaled := sound.payable asked among
    _ ≤ (pacing.pacer.bucket.refill nowMs).level :=
      Pacer.scaled_le_refill sound.legal nowMs

theorem bucket_delayMs {airtimeMs nowMs : Nat} (sound : pacing.Sound)
    (small : airtimeMs ≤ pacing.pacer.budgetMsPerHour) :
    (pacing.step (.delayMs airtimeMs nowMs)).pacer.bucket =
      pacing.pacer.bucket.draw (0, nowMs) := by
  simp only [step, Pacer.delayMs_of_le sound.legal small nowMs]
  exact Pacer.bucket_refill sound.legal nowMs

theorem budget_step {call : PacerCall} (sound : pacing.Sound) :
    (pacing.step call).pacer.budgetMsPerHour =
      pacing.pacer.budgetMsPerHour := by
  cases call with
  | delayMs airtimeMs nowMs =>
      by_cases small : airtimeMs ≤ pacing.pacer.budgetMsPerHour
      · exact congrArg TokenBucket.rate (bucket_delayMs sound small)
      · simp only [step, Pacer.delayMs_of_lt sound.legal (Nat.lt_of_not_le small) nowMs]
  | spend airtimeMs nowMs =>
      exact congrArg TokenBucket.rate (Pacer.bucket_spend sound.legal airtimeMs nowMs)

/-- The calls of a run take their draws from a bucket in exact numbers, and
the bucket can pay every one of them. -/
theorem run_draws {calls : List PacerCall} (sound : pacing.Sound)
    (paced : Along step Paced pacing calls) :
    Along TokenBucket.draw TokenBucket.Pays pacing.pacer.bucket
        (draws pacing.pacer.budgetMsPerHour calls) ∧
      (runFrom step pacing calls).pacer.bucket =
        runFrom TokenBucket.draw pacing.pacer.bucket
          (draws pacing.pacer.budgetMsPerHour calls) := by
  induction calls generalizing pacing with
  | nil => exact ⟨trivial, rfl⟩
  | cons call rest ih =>
      obtain ⟨permitted, later⟩ := paced
      have remaining := ih (sound_step sound permitted) later
      rw [budget_step sound] at remaining
      cases call with
      | delayMs airtimeMs nowMs =>
          have started : pacing.pacer.updatedMs ≤ nowMs :=
            Nat.le_trans sound.started permitted.1
          by_cases small : airtimeMs ≤ pacing.pacer.budgetMsPerHour
          · rw [bucket_delayMs sound small] at remaining
            simp only [draws, if_neg (Nat.not_lt.mpr small)]
            exact ⟨⟨⟨started, Nat.zero_le _⟩, remaining.1⟩, remaining.2⟩
          · have refused := Pacer.delayMs_of_lt sound.legal
              (Nat.lt_of_not_le small) nowMs
            have kept :
                (pacing.step (.delayMs airtimeMs nowMs)).pacer =
                  pacing.pacer := by
              simp only [step, refused]
            rw [kept] at remaining
            simp only [draws, if_pos (Nat.lt_of_not_le small)]
            exact remaining
      | spend airtimeMs nowMs =>
          have spent :
              (pacing.step (.spend airtimeMs nowMs)).pacer.bucket =
                pacing.pacer.bucket.draw (airtimeMs * hourMs, nowMs) :=
            Pacer.bucket_spend sound.legal airtimeMs nowMs
          rw [spent] at remaining
          exact ⟨⟨pays_spend sound permitted, remaining.1⟩, remaining.2⟩

theorem sound_run {calls : List PacerCall} (sound : pacing.Sound)
    (paced : Along step Paced pacing calls) :
    (runFrom step pacing calls).Sound :=
  invariant_runFrom Sound (fun _ _ before permitted => sound_step before permitted) sound paced

theorem clock_step (pacing : Pacing) (call : PacerCall) :
    (pacing.step call).clockMs = call.nowMs := by
  cases call with
  | delayMs airtimeMs nowMs => rfl
  | spend airtimeMs nowMs => rfl

theorem clock_run {calls : List PacerCall} (paced : Along step Paced pacing calls) :
    pacing.clockMs ≤ (runFrom step pacing calls).clockMs := by
  refine invariant_runFrom
    (fun later : Pacing => pacing.clockMs ≤ later.clockMs)
    ?_ (Nat.le_refl _) paced
  intro earlier call before permitted
  rw [clock_step]
  exact Nat.le_trans before permitted.1

/-- Asking alone does not change what the bucket holds at a later time. -/
theorem refill_asks {asks : List PacerCall} {laterMs : Nat}
    (sound : pacing.Sound) (paced : Along step Paced pacing asks)
    (unspent : ∀ call ∈ asks, call.isSpend = false)
    (ordered : (runFrom step pacing asks).clockMs ≤ laterMs) :
    (runFrom step pacing asks).pacer.bucket.refill laterMs =
      pacing.pacer.bucket.refill laterMs := by
  induction asks generalizing pacing with
  | nil => rfl
  | cons call rest ih =>
      obtain ⟨permitted, later⟩ := paced
      have onward := ih (sound_step sound permitted)
        later (fun other among => unspent other (.tail call among)) ordered
      cases call with
      | spend airtimeMs nowMs => cases unspent _ (.head rest)
      | delayMs airtimeMs nowMs =>
          have started : pacing.pacer.bucket.updated ≤ nowMs :=
            Nat.le_trans sound.started permitted.1
          have before : nowMs ≤ laterMs :=
            Nat.le_trans (clock_run later) ordered
          rw [runFrom, onward]
          by_cases small : airtimeMs ≤ pacing.pacer.budgetMsPerHour
          · rw [bucket_delayMs sound small]
            exact TokenBucket.refill_refill started before
          · simp only [step, Pacer.delayMs_of_lt sound.legal (Nat.lt_of_not_le small) nowMs]

theorem budget_run {calls : List PacerCall} (sound : pacing.Sound)
    (paced : Along step Paced pacing calls) :
    (runFrom step pacing calls).pacer.budgetMsPerHour =
      pacing.pacer.budgetMsPerHour := by
  induction calls generalizing pacing with
  | nil => rfl
  | cons call rest ih =>
      rw [runFrom, ih (sound_step sound paced.1) paced.2, budget_step sound]

/-- A delay that is asked for again has shrunk by the time that passed. -/
theorem delay_later {airtimeMs nowMs laterMs wait : Nat}
    {asks : List PacerCall} (sound : pacing.Sound)
    (answered : (pacing.pacer.delayMs airtimeMs nowMs).1 = some wait)
    (paced : Along step Paced pacing (.delayMs airtimeMs nowMs :: asks))
    (unspent : ∀ call ∈ asks, call.isSpend = false) (ordered :
      (runFrom step pacing (.delayMs airtimeMs nowMs :: asks)).clockMs ≤ laterMs) :
    ((runFrom step pacing
        (.delayMs airtimeMs nowMs :: asks)).pacer.delayMs
      airtimeMs laterMs).1 = some (wait - (laterMs - nowMs)) := by
  have started : pacing.pacer.updatedMs ≤ nowMs :=
    Nat.le_trans sound.started paced.1.1
  have small : airtimeMs ≤ pacing.pacer.budgetMsPerHour := by
    by_contra large
    rw [Pacer.delayMs_of_lt sound.legal (Nat.lt_of_not_le large)] at answered
    cases answered
  rw [Pacer.delayMs_of_le sound.legal small] at answered
  have waits : pacing.pacer.bucket.wait (airtimeMs * hourMs) nowMs = wait :=
    Option.some.inj answered
  have before : nowMs ≤ laterMs :=
    Nat.le_trans (clock_run paced.2) ordered
  have fits : airtimeMs * hourMs ≤ pacing.pacer.bucket.capacity :=
    Nat.mul_le_mul_right _ small
  have silent : ∀ call ∈ PacerCall.delayMs airtimeMs nowMs :: asks,
      call.isSpend = false := by
    intro call among
    rcases List.mem_cons.mp among with rfl | asked
    · rfl
    · exact unspent call asked
  have budget := budget_run sound paced
  have same := refill_asks sound paced silent ordered
  have legal := (sound_run sound paced).legal
  rw [Pacer.delayMs_of_le legal (by rw [budget]; exact small)]
  have rate :
      (runFrom step pacing (.delayMs airtimeMs nowMs :: asks)).pacer.bucket.rate =
      pacing.pacer.bucket.rate := budget
  have waitsLater := TokenBucket.wait_later sound.legal.paced fits started before
  rw [← waits, ← waitsLater, TokenBucket.wait, same, rate, TokenBucket.wait]

theorem sound_start {pacer : Pacer} (legal : pacer.Legal) :
    (start pacer pacer.updatedMs).Sound where
  legal := legal
  started := Nat.le_refl _
  payable := by
    intro asked among
    cases among

/-- With a duty between a tenth of a percent and the whole hour, let a pacer
be asked and charged in the order of time, and no more be spent than an
airtime for which the delay was zero.  The machine words compute what exact
numbers would.  In every window the airtime spent is at most one hour's
budget and the duty's share of the window.  A delay is exact: however often
the pacer is asked meanwhile, the delay is zero from the end of the wait on
and not before. -/
theorem paced_run (dutyTenthsPercent startMs : Nat)
    (paced : 0 < dutyTenthsPercent) (bounded : dutyTenthsPercent ≤ 1000) :
    ∃ pacer, Pacer.new dutyTenthsPercent startMs = some pacer ∧
      ∀ calls, Along step Paced (start pacer startMs) calls →
        (runFrom step (start pacer startMs) calls).pacer.bucket =
            runFrom TokenBucket.draw pacer.bucket (draws pacer.budgetMsPerHour calls) ∧
        (∀ sinceMs widthMs,
          1000 * airtimeSpent sinceMs (sinceMs + widthMs) calls ≤
            1000 * pacer.budgetMsPerHour + dutyTenthsPercent * widthMs) ∧
        ∀ airtimeMs nowMs wait,
          ((runFrom step (start pacer startMs) calls).pacer.delayMs
            airtimeMs nowMs).1 = some wait →
          ∀ asks laterMs,
            Along step Paced (runFrom step (start pacer startMs) calls)
              (.delayMs airtimeMs nowMs :: asks) →
            (∀ call ∈ asks, call.isSpend = false) →
            (runFrom step (start pacer startMs)
              (calls ++ .delayMs airtimeMs nowMs :: asks)).clockMs ≤ laterMs →
            ∃ rest,
              ((runFrom step (start pacer startMs)
                (calls ++ .delayMs airtimeMs nowMs :: asks)).pacer.delayMs
                  airtimeMs laterMs).1 = some rest ∧
              (rest = 0 ↔ nowMs + wait ≤ laterMs) := by
  obtain ⟨pacer, made, legal, budget, rfl⟩ :=
    Pacer.new_eq paced bounded startMs
  refine ⟨pacer, made, ?_⟩
  intro calls honoured
  have sound := sound_start legal
  have exactly := run_draws sound honoured
  refine ⟨exactly.2, ?_, ?_⟩
  · intro sinceMs widthMs
    have bound : TokenBucket.drawn sinceMs (sinceMs + widthMs)
          (draws pacer.budgetMsPerHour calls) ≤
        pacer.budgetMsPerHour * hourMs +
          (sinceMs + widthMs - sinceMs) * pacer.budgetMsPerHour :=
      TokenBucket.drawn_le_capacity legal.held exactly.1
    have share : widthMs * (3600 * dutyTenthsPercent) =
        3600 * (dutyTenthsPercent * widthMs) := by
      rw [Nat.mul_comm widthMs, Nat.mul_assoc]
    rw [drawn_draws, Nat.add_sub_cancel_left, budget, share] at bound
    rw [budget]
    unfold hourMs at bound
    omega
  · intro airtimeMs nowMs wait answered asks laterMs asking unspent ordered
    rw [runFrom_append] at ordered ⊢
    have shrunk := delay_later (sound_run sound honoured) answered asking unspent ordered
    refine ⟨_, shrunk, ?_⟩
    have before : nowMs ≤ laterMs :=
      Nat.le_trans (clock_run asking.2) ordered
    omega

/-- At one percent, after 30 of the 36 seconds are spent, a chunk of 12
seconds waits ten minutes: a millisecond earlier it still has to. -/
theorem paced_chunks :
    1000 * airtimeSpent 0 600000
        [.delayMs 30000 0, .spend 30000 0] ≤ 36000000 + 10 * 600000 ∧
      ∃ rest,
        ((runFrom step (start ⟨36000, 129600000000, 0⟩ 0)
          [.delayMs 30000 0, .spend 30000 0,
            .delayMs 12000 0, .delayMs 12000 300000]).pacer.delayMs
              12000 599999).1 = some rest ∧
        (rest = 0 ↔ 0 + 600000 ≤ 599999) := by
  obtain ⟨pacer, made, holds⟩ := paced_run 10 0 (by decide) (by decide)
  have full : Pacer.new 10 0 = some ⟨36000, 129600000000, 0⟩ := by
    decide +kernel
  rw [full] at made
  cases made
  obtain ⟨_, window, delays⟩ := holds [.delayMs 30000 0, .spend 30000 0] (by decide +kernel)
  refine ⟨window 0 600000, ?_⟩
  exact delays 12000 0 600000 (by decide +kernel)
    [.delayMs 12000 300000] 599999 (by decide +kernel) (by decide)
    (by decide +kernel)

end Pacing

end Ratspeak
