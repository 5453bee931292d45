import Mathlib.Data.List.Basic

/-!
# Sources that are asked again and again

A source answers each call with some elements, with nothing at its end, or
with a failure.  `Delivers` says what one call does to what a source still
owes; the elements of all its answers are then exactly what it owed, after
them it answers nothing for ever, and no call fails.
-/

namespace Ratspeak.Library

universe u v w

variable {Source : Type u} {Element : Type v} {Failure : Type w}

/-- The answers of the first calls. -/
def answers (next : Source → Except Failure (Option (List Element)) × Source) :
    Nat → Source → List (Except Failure (Option (List Element)))
  | 0, _ => []
  | calls + 1, source => (next source).1 :: answers next calls (next source).2

/-- A source that owes elements hands out some of them, which are at the
front, and owes the others; one that owes none says so. -/
def Delivers (next : Source → Except Failure (Option (List Element)) × Source)
    (Owes : Source → List Element → Prop) : Prop :=
  ∀ source owed, Owes source owed →
    ((next source).1 = .ok none ∧ owed = [] ∧ Owes (next source).2 []) ∨
    ∃ frame rest, (next source).1 = .ok (some frame) ∧ frame ≠ [] ∧
      owed = frame ++ rest ∧ Owes (next source).2 rest

/-- The answers that hand out these frames and nothing more. -/
def handedOut (frames : List (List Element)) (calls : Nat) :
    List (Except Failure (Option (List Element))) :=
  (frames.map (fun frame => Except.ok (some frame)) ++
    List.replicate calls (Except.ok none)).take calls

variable
  {next : Source → Except Failure (Option (List Element)) × Source}
  {Owes : Source → List Element → Prop}

private theorem answers_end (delivers : Delivers next Owes) (calls : Nat)
    {source : Source} (owes : Owes source []) :
    answers next calls source = List.replicate calls (.ok none) := by
  induction calls generalizing source with
  | zero => rfl
  | succ calls ih =>
      rcases delivers source [] owes with
        ⟨answer, -, later⟩ | ⟨frame, rest, -, some_, split, -⟩
      · rw [answers, answer, ih later, List.replicate_succ]
      · rw [List.nil_eq_append_iff] at split
        exact absurd split.1 some_

/-- A source hands out what it owes, frame by frame, and then nothing. -/
theorem exists_frames (delivers : Delivers next Owes) :
    ∀ {owed : List Element} {source : Source}, Owes source owed →
      ∃ frames : List (List Element),
        frames.flatten = owed ∧ (∀ frame ∈ frames, frame ≠ []) ∧
          ∀ calls, answers next calls source = handedOut frames calls := by
  intro owed
  induction size : owed.length using Nat.strongRecOn generalizing owed with
  | ind bound ih =>
      intro source owes
      rcases delivers source owed owes with
        ⟨answer, rfl, later⟩ | ⟨frame, rest, answer, some_, rfl, later⟩
      · refine ⟨[], rfl, fun _ among => absurd among List.not_mem_nil, ?_⟩
        intro calls
        rw [handedOut, List.map_nil, List.nil_append,
          List.take_of_length_le (Nat.le_of_eq List.length_replicate)]
        exact answers_end delivers calls owes
      · have shorter : rest.length < bound := by
          have long := List.length_pos_iff.mpr some_
          rw [← size, List.length_append]
          omega
        obtain ⟨frames, whole, each, all⟩ :=
          ih rest.length shorter rfl later
        refine ⟨frame :: frames, ?_, ?_, ?_⟩
        · rw [List.flatten_cons, whole]
        · intro other among
          rcases List.mem_cons.mp among with rfl | behind
          · exact some_
          · exact each other behind
        · intro calls
          cases calls with
          | zero => rfl
          | succ calls =>
              have behind := all calls
              rw [handedOut] at behind ⊢
              rw [answers, answer, behind, List.map_cons, List.cons_append, List.take_succ_cons]
              congr 1
              rw [List.take_append, List.take_append, List.take_replicate, List.take_replicate]
              congr 2
              omega

end Ratspeak.Library
