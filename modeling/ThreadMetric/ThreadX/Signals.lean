import Mathlib.Data.Nat.Notation
import Mathlib.Logic.Basic

/-!
# Stopping a pthread by signals

`_tx_posix_thread_suspend` sends `SUSPEND_SIG` and waits for the byte that the handler writes to a
pipe before it waits for `RESUME_SIG`. While the handler runs both signals are blocked, except
that its `sigsuspend` lets `RESUME_SIG` through, and `RESUME_SIG` is blocked outside the handler.
A resumption that comes early therefore stays pending. The predicates `Released`, `Stopping` and
`Halted` describe a pthread that may run, one whose suspension has been requested, and one that
stays in the handler until it is resumed; the handler's steps keep each of them.
-/

namespace ThreadMetric.ThreadX

/-- Where a pthread stands in `_tx_posix_thread_suspend_handler`: outside, at its entry, after the
write of the acknowledgment, inside `sigsuspend`, and after its return. -/
inductive Handler where
  | out
  | entered
  | acked
  | waiting
  | woken
  deriving DecidableEq

/-- The signal state of a pthread; `suspended` is `_tx_posix_thread_suspended`. -/
structure Signals where
  suspendPending : Bool
  resumePending : Bool
  handler : Handler
  suspended : Bool
  deriving DecidableEq

namespace Signals

/-- No signal has been sent. -/
def quiet : Signals := ⟨false, false, .out, false⟩

/-- `pthread_kill(thread_id, SUSPEND_SIG)`. -/
def sendSuspend (g : Signals) : Signals := { g with suspendPending := true }

/-- `pthread_kill(thread_id, RESUME_SIG)`. -/
def sendResume (g : Signals) : Signals := { g with resumePending := true }

/-- The next thing the signal machinery does to the pthread, with the number of bytes written to
the acknowledgment pipe. `none` if nothing is to be done. -/
def step (g : Signals) : Option (Signals × ℕ) :=
  match g.handler with
  | .out =>
      if g.suspendPending then some ({ g with suspendPending := false, handler := .entered }, 0)
      else none
  | .entered =>
      -- the handler ignores a duplicate signal without acknowledging it
      if g.suspended then some ({ g with handler := .out }, 0)
      else some ({ g with handler := .acked }, 1)
  | .acked => some ({ g with suspended := true, handler := .waiting }, 0)
  | .waiting =>
      if g.resumePending then some ({ g with resumePending := false, handler := .woken }, 0)
      else none
  | .woken => some ({ g with suspended := false, handler := .out }, 0)

/-- The pthread is stopped in the handler: it has acknowledged its suspension and has not been
woken. -/
def stopped (g : Signals) : Bool :=
  g.handler = .acked || g.handler = .waiting

/-- Acknowledged, and nothing pending. -/
inductive Halted : Signals → Prop where
  | acked : Halted ⟨false, false, .acked, false⟩
  | waiting : Halted ⟨false, false, .waiting, true⟩

/-- Outside the handler with nothing pending, or on the way there. -/
inductive Released : Signals → Prop where
  | quiet : Released quiet
  | acked : Released ⟨false, true, .acked, false⟩
  | waiting : Released ⟨false, true, .waiting, true⟩
  | woken : Released ⟨false, false, .woken, true⟩

/-- A suspension is under way; the number of bytes in the pipe is `0` before the acknowledgment
and `1` after it. -/
inductive Stopping : Signals → ℕ → Prop where
  | pending {g : Signals} : Released g → Stopping g.sendSuspend 0
  | entered : Stopping ⟨false, false, .entered, false⟩ 0
  | acked {g : Signals} : Halted g → Stopping g 1

variable {g g' : Signals} {written bytes : ℕ}

/-- A halted pthread is stopped. -/
theorem Halted.stopped (h : Halted g) : g.stopped = true := by
  cases h with
  | acked => rfl
  | waiting => rfl

/-- A halted pthread is in the handler. -/
theorem Halted.handler_ne (h : Halted g) : g.handler ≠ .out := by
  cases h <;> decide

/-- Nothing happens to a quiet pthread. -/
theorem quiet_step : quiet.step = none := rfl

/-- A halted pthread stays halted. -/
theorem Halted.step (h : Halted g) (hstep : g.step = some (g', written)) :
    Halted g' ∧ written = 0 := by
  cases h with
  | acked =>
      cases hstep
      exact ⟨.waiting, rfl⟩
  | waiting => cases hstep

/-- A released pthread stays released. -/
theorem Released.step (h : Released g) (hstep : g.step = some (g', written)) :
    Released g' ∧ written = 0 := by
  cases h with
  | quiet => cases hstep
  | acked =>
      cases hstep
      exact ⟨.waiting, rfl⟩
  | waiting =>
      cases hstep
      exact ⟨.woken, rfl⟩
  | woken =>
      cases hstep
      exact ⟨.quiet, rfl⟩

/-- A released pthread outside the handler is quiet. -/
theorem Released.eq_quiet (h : Released g) (hout : g.handler = .out) : g = Signals.quiet := by
  cases h with
  | quiet => rfl
  | acked | waiting | woken => cases hout

/-- A suspension under way takes its course. -/
theorem Stopping.step (h : Stopping g bytes) (hstep : g.step = some (g', written)) :
    Stopping g' (bytes + written) := by
  cases h with
  | pending hreleased =>
      cases hreleased with
      | quiet =>
          cases hstep
          exact .entered
      | acked =>
          cases hstep
          exact .pending .waiting
      | waiting =>
          cases hstep
          exact .pending .woken
      | woken =>
          cases hstep
          exact .pending .quiet
  | entered =>
      cases hstep
      exact .acked .acked
  | acked hhalted =>
      obtain ⟨hafter, rfl⟩ := hhalted.step hstep
      exact .acked hafter

/-- Once the acknowledgment can be read, the pthread is halted and the pipe holds nothing else. -/
theorem Stopping.halted (h : Stopping g bytes) (hbytes : 0 < bytes) : bytes = 1 ∧ Halted g := by
  cases h with
  | pending _ | entered => exact absurd hbytes (Nat.lt_irrefl 0)
  | acked hhalted => exact ⟨rfl, hhalted⟩

/-- Resuming a halted pthread releases it. -/
theorem Halted.sendResume (h : Halted g) : Released g.sendResume := by
  cases h with
  | acked => exact .acked
  | waiting => exact .waiting

end Signals

end ThreadMetric.ThreadX
