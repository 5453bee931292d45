import Mathlib.Algebra.Order.Group.Nat
import Mathlib.Order.Basic
import Ratspeak.Library.Runs

/-!
# Token buckets

A bucket fills at a steady rate up to its capacity, and every withdrawal pays
its price out of it.  When no withdrawal is made that the bucket cannot pay,
what is withdrawn in a window of time is bounded by one full bucket and what
flows in during the window.  The time until a price can be paid is computed
with a division rounded up, and it is exact: it shrinks by one with every unit
of time that passes.
-/

namespace Ratspeak.Library

/-! ## Division rounded up -/

def divCeil (number divisor : Nat) : Nat :=
  if 0 < number % divisor then number / divisor + 1 else number / divisor

theorem divCeil_le_iff {number divisor bound : Nat} (positive : 0 < divisor) :
    divCeil number divisor ≤ bound ↔ number ≤ bound * divisor := by
  have whole : number / divisor * divisor + number % divisor = number :=
    Nat.div_add_mod' number divisor
  have small : number % divisor < divisor := Nat.mod_lt _ positive
  unfold divCeil
  by_cases exactly : 0 < number % divisor
  · rw [if_pos exactly]
    constructor
    · intro below
      have covers : (number / divisor + 1) * divisor ≤ bound * divisor :=
        Nat.mul_le_mul_right divisor below
      rw [Nat.add_mul, Nat.one_mul] at covers
      omega
    · intro below
      by_contra above
      have short : bound * divisor ≤ number / divisor * divisor :=
        Nat.mul_le_mul_right divisor (by omega)
      omega
  · rw [if_neg exactly]
    have divides : number = number / divisor * divisor := by omega
    constructor
    · intro below
      rw [divides]
      exact Nat.mul_le_mul_right divisor below
    · intro below
      rw [divides] at below
      exact Nat.le_of_mul_le_mul_right below positive

/-- Taking away whole multiples of the divisor takes them off the quotient. -/
theorem divCeil_sub_mul {divisor : Nat} (positive : 0 < divisor) (number times : Nat) :
    divCeil (number - times * divisor) divisor =
      divCeil number divisor - times := by
  apply eq_of_forall_ge_iff
  intro bound
  rw [divCeil_le_iff positive, Nat.sub_le_iff_le_add,
    Nat.sub_le_iff_le_add, divCeil_le_iff positive, Nat.add_mul]

/-! ## Buckets -/

structure TokenBucket where
  rate : Nat
  capacity : Nat
  level : Nat
  updated : Nat
deriving DecidableEq, Repr

namespace TokenBucket

def refill (bucket : TokenBucket) (now : Nat) : TokenBucket :=
  { bucket with
    level := min (bucket.level + (now - bucket.updated) * bucket.rate) bucket.capacity
    updated := now }

def withdraw (bucket : TokenBucket) (price now : Nat) : TokenBucket :=
  { bucket.refill now with level := (bucket.refill now).level - price }

/-- How long after `now` the bucket can pay the price. -/
def wait (bucket : TokenBucket) (price now : Nat) : Nat :=
  divCeil (price - (bucket.refill now).level) bucket.rate

/-- A price and the time at which it is paid. -/
abbrev Draw : Type := Nat × Nat

def draw (bucket : TokenBucket) (payment : Draw) : TokenBucket :=
  bucket.withdraw payment.1 payment.2

/-- Time does not run backwards, and the bucket can pay. -/
def Pays (bucket : TokenBucket) (payment : Draw) : Prop :=
  bucket.updated ≤ payment.2 ∧ payment.1 ≤ (bucket.refill payment.2).level

/-- The prices paid from `since` to `upto`, both included. -/
def drawn (since upto : Nat) : List Draw → Nat
  | [] => 0
  | payment :: rest =>
      (if since ≤ payment.2 ∧ payment.2 ≤ upto then payment.1 else 0) + drawn since upto rest

variable {bucket : TokenBucket} {price now later : Nat}

theorem refill_refill (started : bucket.updated ≤ now) (ordered : now ≤ later) :
    (bucket.refill now).refill later = bucket.refill later := by
  have split : (later - bucket.updated) * bucket.rate =
      (now - bucket.updated) * bucket.rate +
        (later - now) * bucket.rate := by
    rw [← Nat.add_mul]
    congr 1
    omega
  simp only [refill, mk.injEq, true_and, and_true, split]
  omega

theorem level_refill_le (bucket : TokenBucket) (now : Nat) :
    (bucket.refill now).level ≤ bucket.capacity :=
  Nat.min_le_right _ _

theorem level_le_refill (now : Nat) (held : bucket.level ≤ bucket.capacity) :
    bucket.level ≤ (bucket.refill now).level := by
  simp only [refill]
  omega

theorem level_withdraw_le (bucket : TokenBucket) (price now : Nat) :
    (bucket.withdraw price now).level ≤ bucket.capacity :=
  Nat.le_trans (Nat.sub_le _ _) (level_refill_le bucket now)

/-! ## What is withdrawn in a window -/

private theorem drawn_of_late {since upto : Nat} {payments : List Draw}
    (along : Along draw Pays bucket payments) (late : upto < bucket.updated) :
    drawn since upto payments = 0 := by
  induction payments generalizing bucket with
  | nil => rfl
  | cons payment rest ih =>
      have after : upto < payment.2 :=
        Nat.lt_of_lt_of_le late along.1.1
      have later := ih along.2 after
      rw [drawn, later, if_neg (by omega)]

/-- From one moment on, the level at that moment and what flows in later is
all that can be paid. -/
theorem drawn_le_level {since upto : Nat} {payments : List Draw}
    (along : Along draw Pays bucket payments) :
    drawn since upto payments ≤
      bucket.level + (upto - bucket.updated) * bucket.rate := by
  induction payments generalizing bucket with
  | nil => exact Nat.zero_le _
  | cons payment rest ih =>
      obtain ⟨⟨started, affordable⟩, later⟩ := along
      by_cases inside : payment.2 ≤ upto
      · have remaining := ih later
        simp only [draw, withdraw] at remaining
        have paid : payment.1 ≤ bucket.level +
            (payment.2 - bucket.updated) * bucket.rate :=
          Nat.le_trans affordable (Nat.min_le_left _ _)
        have split : (upto - bucket.updated) * bucket.rate =
            (payment.2 - bucket.updated) * bucket.rate +
              (upto - payment.2) * bucket.rate := by
          rw [← Nat.add_mul]
          congr 1
          omega
        have charged :
            (if since ≤ payment.2 ∧ payment.2 ≤ upto then payment.1
              else 0) ≤ payment.1 := by
          split <;> omega
        simp only [refill] at remaining affordable
        rw [drawn, split]
        omega
      · have nothing : drawn since upto rest = 0 :=
          drawn_of_late later (by
            change upto < payment.2
            omega)
        rw [drawn, nothing, if_neg (by omega)]
        exact Nat.zero_le _

/-- The draws of a run can be read as draws from the bucket refilled at the
time of the first of them. -/
private theorem along_refill {payment : Draw} {rest : List Draw}
    (along : Along draw Pays bucket (payment :: rest)) :
    Along draw Pays (bucket.refill payment.2) (payment :: rest) := by
  obtain ⟨⟨started, affordable⟩, later⟩ := along
  have same : (bucket.refill payment.2).refill payment.2 =
      bucket.refill payment.2 :=
    refill_refill started (Nat.le_refl _)
  refine ⟨⟨Nat.le_refl _, ?_⟩, ?_⟩
  · rw [same]
    exact affordable
  · rw [draw, withdraw, same]
    exact later

/-- In every window at most a full bucket is paid, and what flows in while
the window lasts. -/
theorem drawn_le_capacity {since upto : Nat} {payments : List Draw}
    (held : bucket.level ≤ bucket.capacity) (along : Along draw Pays bucket payments) :
    drawn since upto payments ≤
      bucket.capacity + (upto - since) * bucket.rate := by
  induction payments generalizing bucket with
  | nil => exact Nat.zero_le _
  | cons payment rest ih =>
      by_cases inside : since ≤ payment.2
      · have bound : drawn since upto (payment :: rest) ≤
            (bucket.refill payment.2).level + (upto - payment.2) * bucket.rate :=
          drawn_le_level (along_refill along)
        have full := level_refill_le bucket payment.2
        have shorter : (upto - payment.2) * bucket.rate ≤
            (upto - since) * bucket.rate :=
          Nat.mul_le_mul_right _ (by omega)
        omega
      · have bound := ih
          (level_withdraw_le bucket payment.1 payment.2) along.2
        rw [drawn, if_neg (by omega), Nat.zero_add]
        exact bound

/-! ## Waiting -/

theorem wait_eq (fits : price ≤ bucket.capacity) :
    bucket.wait price now = divCeil
      (price - (bucket.level + (now - bucket.updated) * bucket.rate))
      bucket.rate := by
  unfold wait
  congr 1
  simp only [refill]
  omega

/-- A wait that is asked for again later has shrunk by the time passed. -/
theorem wait_later (flows : 0 < bucket.rate)
    (fits : price ≤ bucket.capacity) (started : bucket.updated ≤ now) (ordered : now ≤ later) :
    bucket.wait price later = bucket.wait price now - (later - now) := by
  have split : (later - bucket.updated) * bucket.rate =
      (now - bucket.updated) * bucket.rate +
        (later - now) * bucket.rate := by
    rw [← Nat.add_mul]
    congr 1
    omega
  rw [wait_eq fits, wait_eq fits, split, ← divCeil_sub_mul flows, Nat.sub_sub, Nat.add_assoc]

/-- There is nothing to wait for exactly when the bucket can pay. -/
theorem wait_eq_zero_iff (flows : 0 < bucket.rate) :
    bucket.wait price now = 0 ↔ price ≤ (bucket.refill now).level := by
  rw [← Nat.le_zero, wait, divCeil_le_iff flows, Nat.zero_mul, Nat.le_zero]
  exact Nat.sub_eq_zero_iff_le

end TokenBucket

end Ratspeak.Library
