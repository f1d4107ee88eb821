import Mathlib.Data.Int.Notation
import ThreadMetric.Library.Transition

/-!
# The synthetic interrupt of the ThreadX Cortex-M port

`tm_cause_interrupt_sync` runs the interrupt handler as a plain call with interrupts masked. Each
service that the handler calls brackets the kernel call with the mask and with the two counters that
make the kernel defer a preemption, and notes a deferred preemption in a flag, which
`tm_threadx_benchmark_sync_complete` acts upon after unmasking. The machine takes one access or one
instruction per step; wherever interrupts are not masked one may be taken, and another thread may
run until this one is scheduled again. `Inv` says for every program point which brackets are open,
and `sync_bracket` is what a whole call keeps.
-/

namespace ThreadMetric.ThreadX.SyntheticIsr

open Transition

/-- A call of the handler: `tm_thread_resume` or `tm_semaphore_put`. -/
inductive Service where
  | threadResume (threadId : ℤ)
  | semaphorePut (semaphoreId : ℤ)

/-- The id is in the range of `tm_thread_array` or `tm_semaphore_array`. -/
def Service.valid : Service → Bool
  | threadResume threadId => decide (0 ≤ threadId ∧ threadId < 10)
  | semaphorePut semaphoreId => decide (0 ≤ semaphoreId ∧ semaphoreId < 1)

/-- `TM_SUCCESS` and `TM_ERROR`. -/
inductive Status where
  | success
  | error
  deriving DecidableEq

def txSuccess : ℕ := 0

/-- Program points: `tm_cause_interrupt_sync` up to the handler, the handler between two calls, the
kernel call without bracket, `tm_threadx_benchmark_isr_enter`, the kernel call inside the bracket,
`tm_threadx_benchmark_isr_exit`, the rest of `tm_cause_interrupt_sync`,
`tm_threadx_benchmark_sync_complete`, and after the return. -/
inductive Pc where
  | mask
  | activate
  | handler
  | direct
  | enterRead
  | enterMask
  | enterState
  | enterPreempt
  | bracketed
  | exitPreempt
  | exitState
  | exitTest
  | exitUnmask
  | deactivate
  | unmask
  | completeTest
  | completeClear
  | completeCheck
  | systemReturn
  | done
  deriving DecidableEq

/-- The thread inside `tm_cause_interrupt_sync`, with the calls that the handler has still to make
and the statuses they have returned, and the variables of the kernel and of the port. The last four
fields record what happens: whether the handler has left another thread to be executed, how often
an interrupt has switched to another thread, whether an interrupt has made this thread the one to
execute again, and how often `_tx_thread_system_return` has been called. -/
structure State (ι : Type) where
  pc : Pc
  services : List Service
  results : List Status
  saved : Bool
  primask : Bool
  active : Bool
  pending : Bool
  systemState : ℕ
  preemptDisable : ℕ
  executePtr : ι
  leftOther : Bool
  switches : ℕ
  reselected : Bool
  systemReturns : ℕ

/-- The events: the next step of the thread; the return of a kernel service, with its status and
what it has made of `_tx_thread_execute_ptr`; an interrupt that returns to the thread, with what it
has made of that pointer; and an interrupt after which other threads run until this one is scheduled
again. -/
inductive Event (ι : Type) where
  | thread
  | kernel (status : ℕ) (executePtr : ι)
  | interrupt (executePtr : ι)
  | switch

variable {ι : Type} [DecidableEq ι] (current : ι)

/-- A kernel service returns, and the service of the port turns its status into its own. -/
def State.return (s : State ι) (status : ℕ) (executePtr : ι) (pc : Pc) : State ι :=
  { s with
    pc := pc
    executePtr := executePtr
    results := (if status = txSuccess then .success else .error) :: s.results }

/-- The next step of the thread; `none` inside the kernel and after the return. -/
def step (s : State ι) : Option (State ι) :=
  match s.pc with
  | .mask => some { s with primask := true, pc := .activate }
  | .activate => some { s with active := true, pc := .handler }
  | .handler =>
      match s.services with
      | [] => some { s with pc := .deactivate }
      | service :: services =>
          if service.valid then
            some { s with
              services := services
              pc := if s.active then .enterRead else .direct }
          else some { s with services := services, results := .error :: s.results }
  | .enterRead => some { s with saved := s.primask, pc := .enterMask }
  | .enterMask => some { s with primask := true, pc := .enterState }
  | .enterState => some { s with systemState := s.systemState + 1, pc := .enterPreempt }
  | .enterPreempt => some { s with preemptDisable := s.preemptDisable + 1, pc := .bracketed }
  | .exitPreempt => some { s with preemptDisable := s.preemptDisable - 1, pc := .exitState }
  | .exitState => some { s with systemState := s.systemState - 1, pc := .exitTest }
  | .exitTest =>
      some { s with
        pending :=
          if current ≠ s.executePtr ∧ s.preemptDisable = 0 then true else s.pending
        pc := .exitUnmask }
  | .exitUnmask => some { s with primask := s.saved, pc := .handler }
  | .deactivate => some { s with active := false, pc := .unmask }
  | .unmask =>
      some { s with
        primask := false
        leftOther := decide (current ≠ s.executePtr)
        pc := .completeTest }
  | .completeTest => some { s with pc := if s.pending then .completeClear else .done }
  | .completeClear => some { s with pending := false, pc := .completeCheck }
  | .completeCheck =>
      some { s with
        pc :=
          if current ≠ s.executePtr ∧ s.preemptDisable = 0 ∧ s.systemState = 0 then .systemReturn
          else .done }
  -- The call returns when the thread is scheduled again.
  | .systemReturn =>
      some { s with systemReturns := s.systemReturns + 1, executePtr := current, pc := .done }
  | .direct | .bracketed | .done => none

/-- Interrupts are not masked, and the call is on its way. -/
def State.interruptible (s : State ι) : Prop :=
  s.primask = false ∧ s.pc ≠ .mask ∧ s.pc ≠ .done

instance (s : State ι) : Decidable s.interruptible := inferInstanceAs (Decidable (_ ∧ _))

/-- One event. The other threads do not cause synthetic interrupts, and where `active` is not set
the services touch neither flag; a thread that is scheduled again is the one to execute. -/
def next (s : State ι) : Event ι → Option (State ι)
  | .thread => step current s
  | .kernel status executePtr =>
      match s.pc with
      | .bracketed => some (s.return status executePtr .exitPreempt)
      | .direct => some (s.return status executePtr .handler)
      | _ => none
  | .interrupt executePtr =>
      if s.interruptible then
        some { s with
          executePtr := executePtr
          reselected := s.reselected || decide (current ≠ s.executePtr ∧ current = executePtr) }
      else none
  | .switch =>
      if s.interruptible then some { s with switches := s.switches + 1, executePtr := current }
      else none

/-- A call of `tm_cause_interrupt_sync` in thread mode. -/
structure Starts (s : State ι) : Prop where
  pc : s.pc = .mask
  primask : s.primask = false
  active : s.active = false
  systemState : s.systemState = 0
  preemptDisable : s.preemptDisable = 0
  leftOther : s.leftOther = false
  switches : s.switches = 0
  reselected : s.reselected = false
  systemReturns : s.systemReturns = 0

/-! ## The open brackets -/

namespace Pc

/-- Interrupts are masked. -/
def masked : Pc → Bool
  | mask | completeTest | completeClear | completeCheck | systemReturn | done => false
  | _ => true

/-- `tm_benchmark_interrupt_active` is set. -/
def active : Pc → Bool
  | mask | activate | unmask | completeTest | completeClear | completeCheck | systemReturn
  | done => false
  | _ => true

/-- What the bracket has added to `_tx_thread_system_state`. -/
def systemState : Pc → ℕ
  | enterPreempt | bracketed | exitPreempt | exitState => 1
  | _ => 0

/-- What the bracket has added to `_tx_thread_preempt_disable`. -/
def preemptDisable : Pc → ℕ
  | bracketed | exitPreempt => 1
  | _ => 0

/-- The mask has been saved and is to be restored. -/
def saved : Pc → Bool
  | enterMask | enterState | enterPreempt | bracketed | exitPreempt | exitState | exitTest
  | exitUnmask => true
  | _ => false

end Pc

/-- The handler is still to call a service with a valid id. -/
def State.calls (s : State ι) : Bool := s.services.any Service.valid

/-- Another thread to be executed is noted in the flag. -/
def Noted (s : State ι) : Prop := current = s.executePtr ∨ s.pending = true

/-- If the handler has left another thread to be executed, it still is, or an interrupt has dealt
with it. -/
def Dealt (s : State ι) : Prop :=
  s.leftOther = true → current ≠ s.executePtr ∨ 0 < s.switches ∨ s.reselected = true

/-- What is known of a deferred preemption at every program point. -/
def Deferred (s : State ι) : Prop :=
  match s.pc with
  | .mask | .activate | .handler => Noted current s ∨ s.calls = true
  | .exitUnmask | .deactivate | .unmask => Noted current s
  | .completeTest => (s.leftOther = true → s.pending = true) ∧ Dealt current s
  | .completeClear => Dealt current s
  | .completeCheck => Dealt current s ∧ s.pending = false
  | .systemReturn => s.pending = false
  | .done => s.pending = false ∧
      (s.leftOther = true → 0 < s.switches ∨ s.systemReturns = 1 ∨ s.reselected = true)
  | _ => True

/-- Which brackets are open. -/
structure Inv (s : State ι) : Prop where
  primask : s.primask = s.pc.masked
  active : s.active = s.pc.active
  systemState : s.systemState = s.pc.systemState
  preemptDisable : s.preemptDisable = s.pc.preemptDisable
  saved : s.pc.saved = true → s.saved = true
  bracketed : s.pc ≠ .direct
  systemReturns : s.systemReturns ≤ 1
  notReturned : s.pc ≠ .done → s.systemReturns = 0
  deferred : Deferred current s

variable {current} {s s' : State ι}

omit [DecidableEq ι] in
/-- The brackets are open as they should be at the start of a call. -/
theorem Starts.inv (h : Starts s) (hentry : current = s.executePtr ∨ s.calls = true) :
    Inv current s := by
  obtain ⟨hpc, hprimask, hactive, hsystem, hpreempt, -, -, -, hreturns⟩ := h
  refine ⟨?_, ?_, ?_, ?_, ?_, ?_, ?_, ?_, ?_⟩
  · rw [hpc, hprimask]
    rfl
  · rw [hpc, hactive]
    rfl
  · rw [hpc, hsystem]
    rfl
  · rw [hpc, hpreempt]
    rfl
  · intro hsaved
    rw [hpc] at hsaved
    cases hsaved
  · rw [hpc]
    decide
  · omega
  · exact fun _ ↦ hreturns
  · simp only [Deferred, hpc]
    exact hentry.imp_left .inl

/-- A step of the thread opens and closes the brackets in their order. -/
theorem Inv.step (h : Inv current s) (hstep : step current s = some s') : Inv current s' := by
  obtain ⟨hprimask, hactive, hsystem, hpreempt, hsaved, hbracketed, hreturns, hnot, hdeferred⟩ := h
  obtain ⟨pc, services, results, saved, primask, active, pending, systemState, preemptDisable,
    executePtr, leftOther, switches, reselected, systemReturns⟩ := s
  dsimp only at *
  subst hprimask hactive hsystem hpreempt
  cases pc with
  | mask | activate =>
      cases hstep
      exact ⟨rfl, rfl, rfl, rfl, hsaved, by simp, hreturns, fun _ ↦ hnot (by simp), hdeferred⟩
  | handler =>
      cases services with
      | nil =>
          cases hstep
          refine ⟨rfl, rfl, rfl, rfl, hsaved, by simp, hreturns, fun _ ↦ hnot (by simp), ?_⟩
          exact hdeferred.resolve_right (by simp [State.calls])
      | cons service services =>
          by_cases hvalid : service.valid = true
          · simp only [SyntheticIsr.step, if_pos hvalid, Pc.active, if_true] at hstep
            cases hstep
            exact ⟨rfl, rfl, rfl, rfl, hsaved, by simp, hreturns, fun _ ↦ hnot (by simp), trivial⟩
          · simp only [SyntheticIsr.step, if_neg hvalid] at hstep
            cases hstep
            refine ⟨rfl, rfl, rfl, rfl, hsaved, by simp, hreturns, fun _ ↦ hnot (by simp), ?_⟩
            refine hdeferred.imp_right fun hcalls ↦ ?_
            simpa [State.calls, hvalid] using hcalls
  | direct => exact absurd rfl hbracketed
  | enterRead =>
      cases hstep
      exact ⟨rfl, rfl, rfl, rfl, fun _ ↦ rfl, by simp, hreturns, fun _ ↦ hnot (by simp), trivial⟩
  | enterMask | enterState | enterPreempt | exitPreempt | exitState =>
      cases hstep
      exact ⟨rfl, rfl, rfl, rfl, hsaved, by simp, hreturns, fun _ ↦ hnot (by simp), trivial⟩
  | exitTest =>
      cases hstep
      refine ⟨rfl, rfl, rfl, rfl, hsaved, by simp, hreturns, fun _ ↦ hnot (by simp), ?_⟩
      by_cases hcurrent : current = executePtr
      · exact .inl hcurrent
      · exact .inr (if_pos ⟨hcurrent, rfl⟩)
  | exitUnmask =>
      cases hstep
      exact ⟨hsaved rfl, rfl, rfl, rfl, (fun h ↦ by cases h), by simp, hreturns,
        fun _ ↦ hnot (by simp), .inl hdeferred⟩
  | deactivate =>
      cases hstep
      exact ⟨rfl, rfl, rfl, rfl, hsaved, by simp, hreturns, fun _ ↦ hnot (by simp), hdeferred⟩
  | unmask =>
      cases hstep
      refine ⟨rfl, rfl, rfl, rfl, hsaved, by simp, hreturns, fun _ ↦ hnot (by simp), ?_, ?_⟩
      · exact fun hleft ↦ hdeferred.resolve_left (of_decide_eq_true hleft)
      · exact fun hleft ↦ .inl (of_decide_eq_true hleft)
  | completeTest =>
      cases hstep
      cases pending with
      | true =>
          exact ⟨rfl, rfl, rfl, rfl, hsaved, by simp, hreturns, fun _ ↦ hnot (by simp),
            hdeferred.2⟩
      | false =>
          refine ⟨rfl, rfl, rfl, rfl, hsaved, by simp, hreturns, fun hdone ↦ absurd rfl hdone, rfl,
            fun hleft ↦ ?_⟩
          exact absurd (hdeferred.1 hleft) (by simp)
  | completeClear =>
      cases hstep
      exact ⟨rfl, rfl, rfl, rfl, hsaved, by simp, hreturns, fun _ ↦ hnot (by simp), hdeferred, rfl⟩
  | completeCheck =>
      cases hstep
      obtain ⟨hdealt, hpending⟩ := hdeferred
      by_cases hcurrent : current = executePtr
      · have hcheck : ¬ (current ≠ executePtr ∧ Pc.completeCheck.preemptDisable = 0 ∧
            Pc.completeCheck.systemState = 0) := fun hother ↦ hother.1 hcurrent
        simp only [if_neg hcheck]
        refine ⟨rfl, rfl, rfl, rfl, hsaved, by simp, hreturns, fun hdone ↦ absurd rfl hdone,
          hpending, fun hleft ↦ ?_⟩
        rcases hdealt hleft with hother | hswitch | hreselected
        · exact absurd hcurrent hother
        · exact .inl hswitch
        · exact .inr (.inr hreselected)
      · have hcheck : current ≠ executePtr ∧ Pc.completeCheck.preemptDisable = 0 ∧
            Pc.completeCheck.systemState = 0 := ⟨hcurrent, rfl, rfl⟩
        simp only [if_pos hcheck]
        exact ⟨rfl, rfl, rfl, rfl, hsaved, by simp, hreturns, fun _ ↦ hnot (by simp), hpending⟩
  | systemReturn =>
      cases hstep
      have hzero := hnot (by simp)
      refine ⟨rfl, rfl, rfl, rfl, hsaved, by simp, ?_, fun hdone ↦ absurd rfl hdone, hdeferred, ?_⟩
      · show systemReturns + 1 ≤ 1
        omega
      · intro _
        right
        left
        show systemReturns + 1 = 1
        omega
  | bracketed | done => cases hstep

/-- A kernel service inside the bracket leaves the brackets as they are. -/
theorem Inv.kernel (h : Inv current s) {status : ℕ} {executePtr : ι}
    (hnext : next current s (.kernel status executePtr) = some s') : Inv current s' := by
  obtain ⟨hprimask, hactive, hsystem, hpreempt, hsaved, hbracketed, hreturns, hnot, -⟩ := h
  simp only [next] at hnext
  split at hnext
  next hpc =>
    cases hnext
    simp only [hpc] at hprimask hactive hsystem hpreempt hsaved
    exact ⟨hprimask, hactive, hsystem, hpreempt, hsaved, by simp [State.return], hreturns,
      fun _ ↦ hnot (by simp [hpc]), trivial⟩
  next hpc => exact absurd hpc hbracketed
  next => cases hnext

omit [DecidableEq ι] in
/-- An interrupt is taken only after the unmasking. -/
theorem Inv.interruptible (h : Inv current s) (hs : s.interruptible) :
    s.pc = .completeTest ∨ s.pc = .completeClear ∨ s.pc = .completeCheck ∨
      s.pc = .systemReturn := by
  obtain ⟨hprimask, hmask, hdone⟩ := hs
  rw [h.primask] at hprimask
  cases hpc : s.pc <;> simp_all [Pc.masked]

omit [DecidableEq ι] in
/-- After the unmasking, only what interrupts do to the thread to be executed and what is recorded
of them matters to a deferred preemption. -/
theorem Inv.interrupt (h : Inv current s) (hs : s.interruptible) {executePtr : ι} {switches : ℕ}
    {reselected : Bool} (hdealt : Dealt current s → Dealt current { s with
      executePtr := executePtr
      switches := switches
      reselected := reselected }) :
    Inv current { s with
      executePtr := executePtr
      switches := switches
      reselected := reselected } := by
  refine ⟨h.primask, h.active, h.systemState, h.preemptDisable, h.saved, h.bracketed,
    h.systemReturns, h.notReturned, ?_⟩
  have hdeferred := h.deferred
  rcases h.interruptible hs with hpc | hpc | hpc | hpc
  · simp only [Deferred, hpc] at hdeferred ⊢
    exact ⟨hdeferred.1, hdealt hdeferred.2⟩
  · simp only [Deferred, hpc] at hdeferred ⊢
    exact hdealt hdeferred
  · simp only [Deferred, hpc] at hdeferred ⊢
    exact ⟨hdealt hdeferred.1, hdeferred.2⟩
  · simp only [Deferred, hpc] at hdeferred ⊢
    exact hdeferred

/-- Every event keeps the brackets. -/
theorem Inv.next (h : Inv current s) {event : Event ι} (hnext : next current s event = some s') :
    Inv current s' := by
  cases event with
  | thread => exact h.step hnext
  | kernel status executePtr => exact h.kernel hnext
  | interrupt executePtr =>
      simp only [SyntheticIsr.next, Option.ite_none_right_eq_some, Option.some.injEq] at hnext
      obtain ⟨hs, rfl⟩ := hnext
      refine h.interrupt hs fun hdealt hleft ↦ ?_
      rcases hdealt hleft with hother | hswitch | hreselected
      · by_cases hcurrent : current = executePtr
        · refine .inr (.inr ?_)
          rw [Bool.or_eq_true]
          exact .inr (decide_eq_true ⟨hother, hcurrent⟩)
        · exact .inl hcurrent
      · exact .inr (.inl hswitch)
      · exact .inr (.inr (by simp [hreselected]))
  | switch =>
      simp only [SyntheticIsr.next, Option.ite_none_right_eq_some, Option.some.injEq] at hnext
      obtain ⟨hs, rfl⟩ := hnext
      exact h.interrupt hs fun _ _ ↦ .inr (.inl (Nat.succ_pos _))

/-! ## The call returns -/

/-- The event is a step of the call itself. -/
def Event.own : Event ι → Bool
  | thread | kernel _ _ => true
  | interrupt _ | switch => false

/-- How many steps there are at most to the next call of the handler, or to the return. -/
def Pc.rank : Pc → ℕ
  | enterRead => 16
  | enterMask => 15
  | enterState => 14
  | enterPreempt => 13
  | bracketed => 12
  | exitPreempt => 11
  | exitState => 10
  | exitTest | mask => 9
  | exitUnmask | direct | activate => 8
  | handler => 7
  | deactivate => 6
  | unmask => 5
  | completeTest => 4
  | completeClear => 3
  | completeCheck => 2
  | systemReturn => 1
  | done => 0

/-- How many steps there are at most to the return. -/
def State.work (s : State ι) : ℕ := 10 * s.services.length + s.pc.rank

/-- Every step of the call brings it nearer to its return. -/
theorem work_lt {event : Event ι} (hown : event.own = true)
    (hnext : next current s event = some s') : s'.work < s.work := by
  cases event with
  | interrupt executePtr => cases hown
  | switch => cases hown
  | kernel status executePtr =>
      simp only [next] at hnext
      split at hnext
      next hpc =>
        cases hnext
        simp [State.work, State.return, hpc, Pc.rank]
      next hpc =>
        cases hnext
        simp [State.work, State.return, hpc, Pc.rank]
      next => cases hnext
  | thread =>
      obtain ⟨pc, services, results, saved, primask, active, pending, systemState, preemptDisable,
        executePtr, leftOther, switches, reselected, systemReturns⟩ := s
      simp only [next] at hnext
      cases pc with
      | handler =>
          cases services with
          | nil =>
              cases hnext
              simp [State.work, Pc.rank]
          | cons service services =>
              simp only [step] at hnext
              split_ifs at hnext
              all_goals
                cases hnext
                simp only [State.work, Pc.rank, List.length_cons]
                omega
      | completeTest =>
          cases hnext
          cases pending <;> simp [State.work, Pc.rank]
      | completeCheck =>
          cases hnext
          simp only [State.work]
          split_ifs <;> simp [Pc.rank]
      | direct | bracketed | done => cases hnext
      | _ =>
          cases hnext
          simp [State.work, Pc.rank]

/-- The call is never stuck. -/
theorem own_enabled (hdone : s.pc ≠ .done) (executePtr : ι) :
    ∃ event s', Event.own event = true ∧ next current s event = some s' := by
  by_cases hkernel : s.pc = .direct ∨ s.pc = .bracketed
  · refine ⟨.kernel txSuccess executePtr, ?_⟩
    rcases hkernel with hpc | hpc
    · exact ⟨_, rfl, by simp [next, hpc]; rfl⟩
    · exact ⟨_, rfl, by simp [next, hpc]; rfl⟩
  · refine ⟨.thread, ?_⟩
    have hsome : (step current s).isSome = true := by
      unfold step
      cases hpc : s.pc <;> simp_all
      split
      · rfl
      · split_ifs <;> rfl
    obtain ⟨s', hstep⟩ := Option.isSome_iff_exists.mp hsome
    exact ⟨s', rfl, hstep⟩

/-! ## Services that only raise the priority -/

/-- A kernel service only makes a thread of higher priority the one to execute. -/
def KernelRaises (priority : ι → ℕ) (s : State ι) : Event ι → Prop
  | .kernel _ executePtr =>
      executePtr = s.executePtr ∨ priority executePtr < priority s.executePtr
  | _ => True

/-- So does an interrupt. -/
def Raises (priority : ι → ℕ) (s : State ι) : Event ι → Prop
  | .kernel _ executePtr | .interrupt executePtr =>
      executePtr = s.executePtr ∨ priority executePtr < priority s.executePtr
  | _ => True

/-- The thread to be executed has a priority above that of the current thread, unless it is the
current thread, and no interrupt has made it so. -/
structure Above (priority : ι → ℕ) (current : ι) (s : State ι) : Prop where
  executePtr : s.executePtr = current ∨ priority s.executePtr < priority current
  reselected : s.reselected = false

/-- A step of the thread leaves the thread to be executed, or ends with the current thread. -/
theorem step_execute (hstep : step current s = some s') :
    (s'.executePtr = s.executePtr ∨ s'.executePtr = current) ∧
      s'.reselected = s.reselected := by
  unfold step at hstep
  cases hpc : s.pc <;> simp only [hpc] at hstep
  case handler =>
    split at hstep
    · cases hstep
      exact ⟨.inl rfl, rfl⟩
    · split_ifs at hstep <;> cases hstep <;> exact ⟨.inl rfl, rfl⟩
  case systemReturn =>
    cases hstep
    exact ⟨.inr rfl, rfl⟩
  case direct | bracketed | done => cases hstep
  all_goals
    cases hstep
    exact ⟨.inl rfl, rfl⟩

omit [DecidableEq ι] in
/-- Raising the priority keeps it above that of the current thread. -/
theorem Above.raise {priority : ι → ℕ} (h : Above priority current s) {executePtr : ι}
    (hraises : executePtr = s.executePtr ∨ priority executePtr < priority s.executePtr) :
    executePtr = current ∧ s.executePtr = current ∨ priority executePtr < priority current := by
  rcases hraises with rfl | hlt
  · exact h.executePtr.imp_left fun hcurrent ↦ ⟨hcurrent, hcurrent⟩
  · rcases h.executePtr with hcurrent | hcurrent
    · exact .inr (hcurrent ▸ hlt)
    · exact .inr (hlt.trans hcurrent)

/-- Events that only raise the priority keep it so. -/
theorem Above.next {priority : ι → ℕ} (h : Above priority current s) {event : Event ι}
    (hraises : Raises priority s event) (hnext : next current s event = some s') :
    Above priority current s' := by
  cases event with
  | thread =>
      obtain ⟨hexecute, hreselected⟩ := step_execute hnext
      refine ⟨?_, hreselected.trans h.reselected⟩
      rcases hexecute with hkept | hcurrent
      · rw [hkept]
        exact h.executePtr
      · exact .inl hcurrent
  | kernel status executePtr =>
      have habove := (h.raise hraises).imp_left And.left
      simp only [SyntheticIsr.next] at hnext
      split at hnext
      next =>
        cases hnext
        exact ⟨habove, h.reselected⟩
      next =>
        cases hnext
        exact ⟨habove, h.reselected⟩
      next => cases hnext
  | interrupt executePtr =>
      have habove := h.raise hraises
      simp only [SyntheticIsr.next, Option.ite_none_right_eq_some, Option.some.injEq] at hnext
      obtain ⟨-, rfl⟩ := hnext
      refine ⟨habove.imp_left And.left, ?_⟩
      rw [Bool.or_eq_false_iff]
      refine ⟨h.reselected, decide_eq_false fun hboth ↦ ?_⟩
      rcases habove with hsame | hlt
      · exact hboth.1 hsame.2.symm
      · exact absurd (hboth.2 ▸ hlt) (lt_irrefl _)
  | switch =>
      simp only [SyntheticIsr.next, Option.ite_none_right_eq_some, Option.some.injEq] at hnext
      obtain ⟨-, rfl⟩ := hnext
      exact ⟨.inl rfl, h.reselected⟩

/-- A whole call of `tm_cause_interrupt_sync`, by a thread that is the one to execute or with a
handler that calls a service with a valid id. Interrupts are masked wherever the active flag is set,
so that no other thread runs then; where they are not masked, both counters are zero. The call is
never stuck, and each of its own steps brings it nearer to its return. When it returns both flags
are false, and if the handler has left another thread to be executed, an interrupt has switched to
another thread, or `_tx_thread_system_return` has been called just once, or an interrupt has made
the thread the one to execute again, which interrupts do not that only raise the priority. -/
theorem sync_bracket {start s : State ι} (hstart : Starts start)
    (hentry : current = start.executePtr ∨ start.calls = true)
    (hreach : Reachable (next current) start s) :
    (s.active = true → s.primask = true) ∧
    (s.primask = false → s.systemState = 0 ∧ s.preemptDisable = 0) ∧
    (s.pc ≠ .done → ∃ event s', Event.own event = true ∧ next current s event = some s') ∧
    (∀ event s', Event.own event = true → next current s event = some s' → s'.work < s.work) ∧
    s.systemReturns ≤ 1 ∧
    (s.pc = .done → s.active = false ∧ s.pending = false ∧
      (s.leftOther = true → 0 < s.switches ∨ s.systemReturns = 1 ∨ s.reselected = true)) ∧
    ∀ priority : ι → ℕ, current = start.executePtr →
      ReachableWhere (next current) (Raises priority) start s → s.reselected = false := by
  have h : Inv current s := hreach.invariant (Inv current) (hstart.inv hentry)
    fun _ _ _ hinv _ hnext ↦ hinv.next hnext
  refine ⟨?_, ?_, fun hdone ↦ own_enabled hdone current, fun event s' ↦ work_lt, h.systemReturns,
    ?_, ?_⟩
  · rw [h.active, h.primask]
    cases s.pc <;> simp [Pc.active, Pc.masked]
  · rw [h.primask, h.systemState, h.preemptDisable]
    cases s.pc <;> simp [Pc.masked, Pc.systemState, Pc.preemptDisable]
  · intro hdone
    have hdeferred := h.deferred
    simp only [Deferred, hdone] at hdeferred
    refine ⟨?_, hdeferred⟩
    rw [h.active, hdone]
    rfl
  · intro priority hcurrent hraises
    have habove : Above priority current s := hraises.invariant (Above priority current)
      ⟨.inl hcurrent.symm, hstart.reselected⟩ fun _ _ _ habove hallowed hnext ↦
        habove.next hallowed hnext
    exact habove.reselected

/-- Thread zero calls, and thread one has a higher priority. -/
def called (services : List Service) (executePtr : Fin 2) : State (Fin 2) where
  pc := .mask
  services := services
  results := []
  saved := false
  primask := false
  active := false
  pending := false
  systemState := 0
  preemptDisable := 0
  executePtr := executePtr
  leftOther := false
  switches := 0
  reselected := false
  systemReturns := 0

theorem called_starts (services : List Service) (executePtr : Fin 2) :
    Starts (called services executePtr) :=
  ⟨rfl, rfl, rfl, rfl, rfl, rfl, rfl, rfl, rfl⟩

/-- The handler resumes thread one; these are the events up to the unmasking. -/
def resumeOne : List (Event (Fin 2)) :=
  List.replicate 7 .thread ++ [.kernel txSuccess 1] ++ List.replicate 7 .thread

/-- Without interrupts `_tx_thread_system_return` is called, since the handler has left another
thread to be executed. -/
theorem sync_bracket_resume :
    ∃ s, run (next 0) (resumeOne ++ List.replicate 4 .thread) (called [.threadResume 1] 0) =
        some s ∧
      s.pc = .done ∧ s.switches = 0 ∧ s.leftOther = true ∧ s.systemReturns = 1 ∧
      s.systemReturns ≤ 1 ∧ s.active = false ∧ s.pending = false ∧
      (s.leftOther = true → 0 < s.switches ∨ s.systemReturns = 1 ∨ s.reselected = true) := by
  obtain ⟨s, hrun, hdone, hswitches, hleft, hreturned⟩ : ∃ s,
      run (next 0) (resumeOne ++ List.replicate 4 .thread) (called [.threadResume 1] 0) = some s ∧
        s.pc = .done ∧ s.switches = 0 ∧ s.leftOther = true ∧ s.systemReturns = 1 :=
    ⟨_, rfl, rfl, rfl, rfl, rfl⟩
  obtain ⟨-, -, -, -, hreturns, hend, -⟩ :=
    sync_bracket (called_starts _ _) (.inl rfl) (reachable_of_run hrun)
  exact ⟨s, hrun, hdone, hswitches, hleft, hreturned, hreturns, hend hdone⟩

/-- Thread one has the higher priority. -/
def oneFirst (i : Fin 2) : ℕ := 1 - i

/-- An interrupt after the unmasking suspends the thread that the handler has resumed, and the call
returns without a switch and without calling `_tx_thread_system_return`. It does as well, without
any interrupt, if another thread was to be executed all along and the handler calls nothing. -/
theorem reselected_without_return :
    ¬ (∀ (priority : Fin 2 → ℕ) (start s : State (Fin 2)), Starts start → start.executePtr = 0 →
      ReachableWhere (next 0) (KernelRaises priority) start s → s.pc = .done →
      s.leftOther = true → 0 < s.switches ∨ s.systemReturns = 1) ∧
    ¬ ∀ start s : State (Fin 2), Starts start →
      ReachableWhere (next 0) (fun _ event ↦ event.own = true) start s → s.pc = .done →
      s.leftOther = true → 0 < s.switches ∨ s.systemReturns = 1 := by
  constructor
  · intro h
    obtain ⟨s, hrun, hdone, hleft, hswitches, hreturns⟩ : ∃ s,
        run (next 0) (resumeOne ++ [.interrupt 0] ++ List.replicate 3 .thread)
          (called [.threadResume 1] 0) = some s ∧
        s.pc = .done ∧ s.leftOther = true ∧ s.switches = 0 ∧ s.systemReturns = 0 :=
      ⟨_, rfl, rfl, rfl, rfl, rfl⟩
    have hraises : ∀ i : Fin 2, 1 = i ∨ oneFirst 1 < oneFirst i := by decide
    have hreach :
        ReachableWhere (next 0) (KernelRaises oneFirst) (called [.threadResume 1] 0) s := by
      refine reachable_where_of_run _ (fun event hevent state ↦ ?_) hrun
      simp only [resumeOne, List.mem_append, List.mem_replicate, List.mem_singleton] at hevent
      rcases hevent with (((⟨-, rfl⟩ | rfl) | ⟨-, rfl⟩) | rfl) | ⟨-, rfl⟩
      · trivial
      · exact hraises state.executePtr
      · trivial
      · trivial
      · trivial
    have := h oneFirst _ s (called_starts _ _) rfl hreach hdone hleft
    omega
  · intro h
    obtain ⟨s, hrun, hdone, hleft, hswitches, hreturns⟩ : ∃ s,
        run (next 0) (List.replicate 6 .thread) (called [] 1) = some s ∧
        s.pc = .done ∧ s.leftOther = true ∧ s.switches = 0 ∧ s.systemReturns = 0 :=
      ⟨_, rfl, rfl, rfl, rfl, rfl⟩
    have hreach :
        ReachableWhere (next 0) (fun _ event ↦ Event.own event = true) (called [] 1) s := by
      refine reachable_where_of_run _ (fun event hevent state ↦ ?_) hrun
      rw [List.eq_of_mem_replicate hevent]
      rfl
    have := h _ s (called_starts _ _) hreach hdone hleft
    omega

end ThreadMetric.ThreadX.SyntheticIsr
