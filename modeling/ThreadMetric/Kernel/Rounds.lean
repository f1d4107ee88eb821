import Mathlib.Algebra.Group.Submonoid.Membership
import Mathlib.Data.Fintype.Basic
import ThreadMetric.Kernel.Machine

/-!
# Rounds

Nothing a thread does depends on the values of the counters, so two states that differ only by a
shift of all counters, and of the two token records, behave alike: `next_vadd`. The threads of the
priority-driven tests run through the same finitely many states in every round, with all counters
one larger, and `reachable_rounds` reduces a property of all their runs to the states of one round.
-/

namespace ThreadMetric.Kernel

open Transition

variable {ι κ : Type}

/-- A shift by `(rounds, tokens)` adds the first number to every counter and the second to the
records of posted and taken tokens. -/
instance : VAdd (ℕ × ℕ) (Machine ι κ) where
  vadd k m :=
    { m with
      count := fun c ↦ k.1 + m.count c
      posted := k.2 + m.posted
      taken := k.2 + m.taken }

section

variable (k : ℕ × ℕ) (m : Machine ι κ)

@[simp] theorem vadd_pc : (k +ᵥ m).pc = m.pc := rfl
@[simp] theorem vadd_count (c : κ) : (k +ᵥ m).count c = k.1 + m.count c := rfl
@[simp] theorem vadd_ready : (k +ᵥ m).ready = m.ready := rfl
@[simp] theorem vadd_semaphore : (k +ᵥ m).semaphore = m.semaphore := rfl
@[simp] theorem vadd_trigger : (k +ᵥ m).trigger = m.trigger := rfl
@[simp] theorem vadd_waiting : (k +ᵥ m).waiting = m.waiting := rfl
@[simp] theorem vadd_posted : (k +ᵥ m).posted = k.2 + m.posted := rfl
@[simp] theorem vadd_taken : (k +ᵥ m).taken = k.2 + m.taken := rfl

end

/-- Shifts compose. -/
instance : AddAction (ℕ × ℕ) (Machine ι κ) where
  zero_vadd m := by
    ext <;> simp
  add_vadd k l m := by
    ext <;> simp [Nat.add_assoc]

/-- There are two events. -/
instance : Fintype Setup.Move where
  elems := {.run, .tick}
  complete := by
    intro move
    cases move <;> decide

/-- States over finitely many threads and counters can be compared. -/
instance [Fintype ι] [Fintype κ] [DecidableEq ι] : DecidableEq (Machine ι κ) :=
  fun _ _ ↦ decidable_of_iff _ Machine.ext_iff.symm

namespace Setup

variable [DecidableEq ι] [DecidableEq κ] (setup : Setup ι κ)

omit [DecidableEq κ] in
/-- Going on commutes with shifts. -/
theorem go_on_vadd (k : ℕ × ℕ) (m : Machine ι κ) (t : ι) (position : ℕ) :
    setup.goOn (k +ᵥ m) t position = k +ᵥ setup.goOn m t position := rfl

omit [DecidableEq κ] in
/-- Posting to the interrupt semaphore commutes with shifts. -/
theorem post_trigger_vadd (k : ℕ × ℕ) (m : Machine ι κ) :
    setup.postTrigger (k +ᵥ m) = k +ᵥ setup.postTrigger m := by
  unfold postTrigger
  cases setup.port with
  | threadX =>
      rw [vadd_waiting]
      cases m.waiting with
      | none => ext <;> simp [Nat.add_assoc]
      | some u =>
          simp only [vadd_pc, go_on_vadd]
          ext <;> simp [Nat.add_assoc]
  | freeRTOS =>
      by_cases htrigger : m.trigger = 0
      · simp only [vadd_trigger, htrigger, if_true]
        ext <;> simp [Nat.add_assoc]
      · simp only [vadd_trigger, htrigger, if_false]
        ext <;> simp [Nat.add_assoc]

/-- Every statement commutes with shifts. -/
theorem execute_vadd (k : ℕ × ℕ) (m : Machine ι κ) (t : ι) (position : ℕ) (instr : Instr ι κ) :
    setup.execute (k +ᵥ m) t position instr = k +ᵥ setup.execute m t position instr := by
  cases instr with
  | resume u =>
      simp only [execute, go_on_vadd]
      by_cases hready : u ∈ (setup.goOn m t position).ready ∨
          (setup.goOn m t position).waiting = some u
      · simp only [vadd_ready, vadd_waiting, hready, if_true]
      · simp only [vadd_ready, vadd_waiting, hready, if_false]
        rfl
  | suspend u => rfl
  | relinquish => rfl
  | increment c =>
      simp only [execute, go_on_vadd]
      ext <;> simp [Function.update_apply, goOn]
      split <;> omega
  | semaphoreGet =>
      simp only [execute, vadd_semaphore]
      split <;> rfl
  | semaphorePut => rfl
  | waitInterrupt =>
      simp only [execute, vadd_trigger, go_on_vadd]
      split
      · ext <;> simp [Nat.add_assoc]
      · rfl
  | causeInterrupt => simp only [execute, go_on_vadd, post_trigger_vadd]

omit [DecidableEq ι] [DecidableEq κ] in
/-- The running thread and its statement do not depend on the counters. -/
theorem current_vadd (k : ℕ × ℕ) (m : Machine ι κ) :
    setup.current (k +ᵥ m) = setup.current m := rfl

/-- Every step commutes with shifts. -/
theorem next_vadd (k : ℕ × ℕ) (m : Machine ι κ) (move : Move) :
    setup.next (k +ᵥ m) move = (setup.next m move).map (k +ᵥ ·) := by
  cases move with
  | run =>
      simp only [next, current_vadd, Option.map_map]
      congr 1
      funext fetched
      obtain ⟨t, position, instr⟩ := fetched
      exact setup.execute_vadd k m t position instr
  | tick =>
      simp only [next]
      split <;> rfl

/-- The states before each of the first `n` statements. -/
def firstStates (start : Machine ι κ) (n : ℕ) : List (Machine ι κ) :=
  (List.range n).filterMap fun i ↦ run setup.next (List.replicate i .run) start

variable {setup} {start m : Machine ι κ}

/-- If the first `n` states are closed under all steps, up to a round in which `tokens` tokens are
posted, then every state reached is one of them, up to a number of rounds. -/
theorem reachable_rounds {n : ℕ} (tokens : ℕ) (hstart : start ∈ setup.firstStates start n)
    (hclosed : ∀ state ∈ setup.firstStates start n, ∀ move, ∀ finish ∈ setup.next state move,
      ∃ state' ∈ setup.firstStates start n, finish = state' ∨ finish = (1, tokens) +ᵥ state')
    (hreach : Reachable setup.next start m) :
    ∃ rounds : ℕ, ∃ state ∈ setup.firstStates start n, m = (rounds, rounds * tokens) +ᵥ state := by
  have hshift := reachable_shift (AddSubmonoid.multiples (1, tokens)) setup.next_vadd hstart
    (fun state hstate move finish hfinish ↦ ?_) hreach
  · obtain ⟨k, hk, state, hstate, hm⟩ := hshift
    obtain ⟨rounds, rfl⟩ := hk
    exact ⟨rounds, state, hstate, by simpa using hm⟩
  · obtain ⟨state', hstate', hsame | hround⟩ := hclosed state hstate move finish hfinish
    · exact ⟨0, zero_mem _, state', hstate', by rw [hsame, zero_vadd]⟩
    · exact ⟨_, AddSubmonoid.mem_multiples _, state', hstate', hround⟩

end Setup

end ThreadMetric.Kernel
