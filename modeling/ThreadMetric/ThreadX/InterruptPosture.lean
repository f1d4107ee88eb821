import ThreadMetric.Report.Parameters
import ThreadMetric.ThreadX.Handoff

/-!
# The interrupt posture of the ThreadX POSIX port

`_tx_thread_interrupt_control` stands for disabling interrupts by holding a recursive mutex, and
tells the old posture from a count that every pthread keeps of its locks. A `Nest` is a well-nested
sequence of `TX_DISABLE` and `TX_RESTORE`. Inside a critical section no call unlocks, so the depth
grows with every call (`Held.exec`) until the restore of the outermost pair releases all locks
(`outermost_sections`), or `_tx_thread_context_restore` does (`inside_timer_interrupt`). The count
is an `int`, so a section has room for a bounded number of pairs (`overflow_of_long`).
-/

namespace ThreadMetric.ThreadX

open Parameters

/-- Why a call does not return: the count of the locks left `int`, which C does not define, or the
pthread has exited. -/
inductive Stop where
  | overflow
  | exited
  deriving DecidableEq

/-- What the mutex guards: the variables that the functions of this module read and write. -/
structure Guarded (ι : Type) where
  systemState : ℕ
  currentPtr : Option ι
  executePtr : Option ι
  preemptDisable : ℕ
  timerWaiting : Bool
  suspensionType : ι → Bool
  intDisabled : ι → Bool
  globalIntDisabled : Bool

/-- A pthread, with the ThreadX thread that it runs. `depth` is its recursion depth on
`_tx_posix_mutex`, `lockCount` its `_tx_posix_mutex_lock_count`, and `depths` are the depths after
each operation on the mutex since the last call began, the latest first. -/
structure Pthread (ι : Type) where
  thread : Option ι
  depth : ℕ
  lockCount : ℤ
  depths : List ℕ
  guarded : Guarded ι

namespace Pthread

variable {ι : Type} [DecidableEq ι]

omit [DecidableEq ι] in
/-- `tx_posix_mutex_lock`, once the mutex is available. -/
def lock (s : Pthread ι) : Except Stop (Pthread ι) :=
  if s.lockCount < intMax then
    .ok { s with
      depth := s.depth + 1
      lockCount := s.lockCount + 1
      depths := (s.depth + 1) :: s.depths }
  else .error .overflow

omit [DecidableEq ι] in
/-- `tx_posix_mutex_unlock`; a mutex that is not held stays as it is. -/
def unlock (s : Pthread ι) : Except Stop (Pthread ι) :=
  if -intMax - 1 < s.lockCount then
    .ok { s with
      depth := s.depth - 1
      lockCount := s.lockCount - 1
      depths := (s.depth - 1) :: s.depths }
  else .error .overflow

omit [DecidableEq ι] in
/-- The loop of `tx_posix_mutex_recursive_unlock` for a given `_rc`. -/
def unlockLoop : ℕ → Pthread ι → Except Stop (Pthread ι)
  | 0, s => .ok s
  | rc + 1, s => s.unlock >>= unlockLoop rc

omit [DecidableEq ι] in
/-- `tx_posix_mutex_recursive_unlock`. -/
def recursiveUnlock (s : Pthread ι) : Except Stop (Pthread ι) :=
  unlockLoop s.lockCount.toNat s

/-- `_tx_thread_interrupt_control`: the old posture. -/
def interruptControl (newPosture : Posture) (s : Pthread ι) :
    Except Stop (Posture × Pthread ι) := do
  let s ← s.lock
  -- A terminated thread that still runs.
  if s.thread ≠ none ∧ s.guarded.currentPtr ≠ s.thread then
    let _ ← s.recursiveUnlock
    .error .exited
  else
    let oldPosture : Posture := if s.lockCount = 1 then .enable else .disable
    if s.guarded.systemState ≠ 0 then
      match newPosture with
      | .enable =>
          let s ← { s with guarded :=
            { s.guarded with globalIntDisabled := false } }.recursiveUnlock
          .ok (oldPosture, s)
      | .disable =>
          .ok (oldPosture, { s with guarded := { s.guarded with globalIntDisabled := true } })
    else
      match s.guarded.currentPtr with
      | none => .ok (oldPosture, s)
      | some i =>
          match newPosture with
          | .enable =>
              let s ← { s with guarded :=
                { s.guarded with intDisabled := Function.update s.guarded.intDisabled i false }
                }.recursiveUnlock
              .ok (oldPosture, s)
          | .disable =>
              .ok (oldPosture, { s with guarded :=
                { s.guarded with intDisabled := Function.update s.guarded.intDisabled i true } })

/-- `TX_DISABLE`: `_tx_thread_interrupt_disable`, whose result goes to `tx_saved_posture`. -/
def txDisable (s : Pthread ι) : Except Stop (Posture × Pthread ι) :=
  interruptControl .disable { s with depths := [] }

/-- `TX_RESTORE`: `_tx_thread_interrupt_restore` of `tx_saved_posture`. -/
def txRestore (saved : Posture) (s : Pthread ι) : Except Stop (Pthread ι) := do
  let (_, s) ← interruptControl saved { s with depths := [] }
  .ok s

end Pthread

/-- A well-nested sequence: nothing, or a pair around a sequence followed by another sequence. -/
inductive Nest where
  | nil
  | pair (inner rest : Nest)

/-- How many pairs there are. -/
def Nest.pairs : Nest → ℕ
  | nil => 0
  | pair inner rest => inner.pairs + rest.pairs + 1

/-- A call that has returned: how many pairs it is in, what a disable has returned, and the pthread
afterwards. -/
structure Visit (ι : Type) where
  level : ℕ
  returned : Option Posture
  after : Pthread ι

namespace Nest

variable {ι : Type} [DecidableEq ι]

/-- Run a sequence inside `level` pairs; each restore gets what its own disable has returned. -/
def exec : Nest → ℕ → Pthread ι → Except Stop (List (Visit ι) × Pthread ι)
  | nil, _, s => .ok ([], s)
  | pair inner rest, level, s => do
      let (posture, s₁) ← s.txDisable
      let (visits, s₂) ← inner.exec (level + 1) s₁
      let s₃ ← s₂.txRestore posture
      let (visits', s₄) ← rest.exec level s₃
      .ok (⟨level, some posture, s₁⟩ :: visits ++ ⟨level, none, s₃⟩ :: visits', s₄)

end Nest

section Contexts

variable {ι : Type} [DecidableEq ι]

/-- The critical sections of a ThreadX thread one after another; before each of them the other
pthreads may have changed what the mutex guards. -/
def sections : List (Guarded ι × Nest) → Pthread ι → Except Stop (List (Visit ι) × Pthread ι)
  | [], s => .ok ([], s)
  | (guarded, inner) :: rest, s => do
      let (visits, s₁) ← (Nest.pair inner .nil).exec 0 { s with guarded := guarded }
      let (visits', s₂) ← sections rest s₁
      .ok (visits ++ visits', s₂)

/-- `_tx_timer_interrupt`, in which the kernel runs a sequence. -/
def timerInterrupt (nest : Nest) (s : Pthread ι) : Except Stop (List (Visit ι) × Pthread ι) := do
  let s₁ ← s.lock
  let (visits, s₂) ← nest.exec 0 s₁
  let s₃ ← s₂.unlock
  .ok (visits, s₃)

/-- In `_tx_thread_context_restore`: if the next thread waits for its semaphore, the pthread waits
for `_tx_posix_isr_semaphore` without the mutex; `others` is what the mutex guards afterwards. -/
def waitIsr (others : Guarded ι) (s : Pthread ι) : Except Stop (Pthread ι) :=
  match s.guarded.executePtr with
  | none => .ok s
  | some i =>
      if s.guarded.suspensionType i = false then do
        let s₁ ← s.recursiveUnlock
        { s₁ with guarded := others }.lock
      else .ok s

/-- What `_tx_thread_context_restore` does when the current thread `i` is preempted; posting the
semaphore of the scheduler locks and unlocks the mutex. -/
def preempt (others : Guarded ι) (i : ι) (s : Pthread ι) : Except Stop (Pthread ι) := do
  let s₁ ← { s with guarded := { s.guarded with
    suspensionType := Function.update s.guarded.suspensionType i true
    currentPtr := none
    timerWaiting := true } }.lock
  let s₂ ← s₁.unlock
  let s₃ ← waitIsr others s₂
  .ok { s₃ with guarded := { s₃.guarded with timerWaiting := false } }

omit [DecidableEq ι] in
/-- `_tx_posix_thread_resume`, which sends the signal with the mutex held. -/
def resumeCurrent (s : Pthread ι) : Except Stop (Pthread ι) := do
  let s₁ ← s.lock
  s₁.unlock

/-- Leave the interrupt: the current thread is preempted or resumed, unless the interrupt has come
inside another one. -/
def leaveInterrupt (others : Guarded ι) (s : Pthread ι) : Except Stop (Pthread ι) :=
  let systemState := s.guarded.systemState - 1
  let s₁ := { s with guarded := { s.guarded with systemState := systemState } }
  match s.guarded.currentPtr with
  | none => .ok s₁
  | some i =>
      if systemState = 0 then
        if s.guarded.preemptDisable = 0 ∧ s.guarded.executePtr ≠ some i then preempt others i s₁
        else resumeCurrent s₁
      else .ok s₁

/-- `_tx_thread_context_restore`. -/
def contextRestore (others : Guarded ι) (s : Pthread ι) : Except Stop (Pthread ι) := do
  let s₁ ← s.lock
  let s₂ ← leaveInterrupt others s₁
  s₂.recursiveUnlock

end Contexts

/-! ## Inside a critical section -/

/-- The depth and the count are both `n`. -/
structure Counted {ι : Type} (s : Pthread ι) (n : ℕ) : Prop where
  depth : s.depth = n
  lockCount : s.lockCount = n

/-- The mutex is held, and the pthread does not take itself for a terminated thread. -/
structure Held {ι : Type} (s : Pthread ι) (n : ℕ) : Prop extends Counted s n where
  pos : 1 ≤ n
  alive : s.thread = none ∨ s.guarded.currentPtr = s.thread

/-- The pthread is in the same context: the same thread, the same current thread and the same
`_tx_thread_system_state`. -/
structure SameContext {ι : Type} (s s' : Pthread ι) : Prop where
  thread : s'.thread = s.thread
  currentPtr : s'.guarded.currentPtr = s.guarded.currentPtr
  systemState : s'.guarded.systemState = s.guarded.systemState

/-- A call inside a critical section: the count is the depth, a disable has returned
`TX_INT_DISABLE`, and the mutex has been held throughout. -/
structure Visit.Inside {ι : Type} (v : Visit ι) : Prop where
  lockCount : v.after.lockCount = v.after.depth
  returned : v.returned ≠ some .enable
  depth : 1 ≤ v.after.depth
  depths : ∀ d ∈ v.after.depths, 1 ≤ d

variable {ι : Type} {s s' : Pthread ι} {n : ℕ}

theorem SameContext.trans {s'' : Pthread ι} (h : SameContext s s') (h' : SameContext s' s'') :
    SameContext s s'' :=
  ⟨h'.thread.trans h.thread, h'.currentPtr.trans h.currentPtr, h'.systemState.trans h.systemState⟩

/-- Locking counts. -/
theorem Counted.lock (h : Counted s n) (hn : (n : ℤ) < intMax) :
    s.lock = .ok { s with depth := n + 1, lockCount := n + 1, depths := (n + 1) :: s.depths } := by
  rw [Pthread.lock, h.lockCount, if_pos hn, h.depth]

/-- A count at its maximum cannot grow. -/
theorem Counted.lock_overflow (h : Counted s n) (hn : intMax ≤ n) :
    s.lock = .error .overflow := by
  rw [Pthread.lock, h.lockCount, if_neg (not_lt.mpr hn)]

/-- Unlocking counts down. -/
theorem Counted.unlock (h : Counted s (n + 1)) :
    s.unlock = .ok { s with depth := n, lockCount := n, depths := n :: s.depths } := by
  have hbound : -intMax - 1 < ((n + 1 : ℕ) : ℤ) := by
    unfold intMax
    omega
  rw [Pthread.unlock, h.lockCount, if_pos hbound, h.depth]
  simp

/-- Undoing all locks ends at zero. -/
theorem Counted.recursiveUnlock (h : Counted s n) :
    ∃ depths, s.recursiveUnlock = .ok { s with depth := 0, lockCount := 0, depths := depths } := by
  rw [Pthread.recursiveUnlock, h.lockCount, Int.toNat_natCast]
  induction n generalizing s with
  | zero =>
      obtain ⟨thread, depth, lockCount, depths, guarded⟩ := s
      obtain ⟨rfl, rfl⟩ := h
      exact ⟨depths, rfl⟩
  | succ n ih =>
      obtain ⟨depths, hrest⟩ := ih (s := { s with
        depth := n
        lockCount := n
        depths := n :: s.depths }) ⟨rfl, rfl⟩
      refine ⟨depths, ?_⟩
      rw [Pthread.unlockLoop, h.unlock]
      exact hrest

/-- Locking adds one. -/
theorem Counted.locked (h : Counted s n) (hn : (n : ℤ) < intMax) :
    ∃ s', s.lock = .ok s' ∧ Counted s' (n + 1) :=
  ⟨_, h.lock hn, rfl, by simp⟩

/-- Unlocking takes one away. -/
theorem Counted.unlocked (h : Counted s (n + 1)) : ∃ s', s.unlock = .ok s' ∧ Counted s' n :=
  ⟨_, h.unlock, rfl, rfl⟩

/-- Undoing all locks leaves none. -/
theorem Counted.released (h : Counted s n) : ∃ s', s.recursiveUnlock = .ok s' ∧ Counted s' 0 := by
  obtain ⟨depths, hrelease⟩ := h.recursiveUnlock
  exact ⟨_, hrelease, rfl, rfl⟩

variable [DecidableEq ι]

/-- At the maximum of the count no call returns. -/
theorem Counted.control_overflow (h : Counted s n) (hn : intMax ≤ n) (posture : Posture) :
    s.interruptControl posture = .error .overflow := by
  simp only [Pthread.interruptControl, h.lock_overflow hn, bind, Except.bind]

/-- Inside a critical section, disabling interrupts locks the mutex once more. -/
theorem Held.control_disable (h : Held s n) (hn : (n : ℤ) < intMax) :
    ∃ s', s.interruptControl .disable = .ok (.disable, s') ∧ Held s' (n + 1) ∧
      SameContext s s' ∧ s'.depths = (n + 1) :: s.depths := by
  have halive : ¬ (s.thread ≠ none ∧ s.guarded.currentPtr ≠ s.thread) := by
    rcases h.alive with hnone | hsame
    · exact fun hexit ↦ hexit.1 hnone
    · exact fun hexit ↦ hexit.2 hsame
  have hcount : ¬ ((n : ℤ) + 1 = 1) := by
    have hpos := h.pos
    omega
  simp only [Pthread.interruptControl, h.lock hn, bind, Except.bind, if_neg halive, if_neg hcount]
  split_ifs with hsystem
  · exact ⟨_, rfl, ⟨⟨rfl, by simp⟩, Nat.le_add_left .., h.alive⟩, ⟨rfl, rfl, rfl⟩, rfl⟩
  · split
    · exact ⟨_, rfl, ⟨⟨rfl, by simp⟩, Nat.le_add_left .., h.alive⟩, ⟨rfl, rfl, rfl⟩, rfl⟩
    · exact ⟨_, rfl, ⟨⟨rfl, by simp⟩, Nat.le_add_left .., h.alive⟩, ⟨rfl, rfl, rfl⟩, rfl⟩

omit [DecidableEq ι] in
/-- A call begins by forgetting the depths of the last one. -/
theorem Held.begin (h : Held s n) : Held { s with depths := [] } n :=
  ⟨⟨h.depth, h.lockCount⟩, h.pos, h.alive⟩

/-- `TX_DISABLE` inside a critical section. -/
theorem Held.txDisable (h : Held s n) (hn : (n : ℤ) < intMax) :
    ∃ s', s.txDisable = .ok (.disable, s') ∧ Held s' (n + 1) ∧ SameContext s s' ∧
      s'.depths = [n + 1] := by
  obtain ⟨s', hcontrol, hheld, hsame, hdepths⟩ := h.begin.control_disable hn
  exact ⟨s', hcontrol, hheld, ⟨hsame.thread, hsame.currentPtr, hsame.systemState⟩, hdepths⟩

/-- `TX_RESTORE` inside a critical section. -/
theorem Held.txRestore (h : Held s n) (hn : (n : ℤ) < intMax) :
    ∃ s', s.txRestore .disable = .ok s' ∧ Held s' (n + 1) ∧ SameContext s s' ∧
      s'.depths = [n + 1] := by
  obtain ⟨s', hcontrol, hheld, hsame, hdepths⟩ := h.begin.control_disable hn
  refine ⟨s', ?_, hheld, ⟨hsame.thread, hsame.currentPtr, hsame.systemState⟩, hdepths⟩
  rw [Pthread.txRestore, hcontrol]
  rfl

/-- `TX_DISABLE` at the maximum of the count. -/
theorem Held.disable_overflow (h : Held s n) (hn : intMax ≤ n) :
    s.txDisable = .error .overflow :=
  h.begin.control_overflow hn .disable

/-- `TX_RESTORE` at the maximum of the count. -/
theorem Held.restore_overflow (h : Held s n) (hn : intMax ≤ n) (saved : Posture) :
    s.txRestore saved = .error .overflow := by
  rw [Pthread.txRestore, h.begin.control_overflow hn saved]
  rfl

omit [DecidableEq ι] in
/-- What a call inside a critical section leaves behind. -/
theorem Held.inside (h : Held s (n + 1)) (hdepths : s.depths = [n + 1]) (level : ℕ)
    {returned : Option Posture} (hreturned : returned ≠ some .enable) :
    Visit.Inside ⟨level, returned, s⟩ := by
  refine ⟨by rw [h.lockCount, h.depth], hreturned, ?_, ?_⟩
  · show 1 ≤ s.depth
    rw [h.depth]
    exact Nat.le_add_left ..
  · intro d hd
    rw [show Pthread.depths _ = [n + 1] from hdepths, List.mem_singleton] at hd
    omega

/-- Inside a critical section every sequence for which the count has room runs to its end, and every
call of it locks the mutex once. -/
theorem Held.exec (h : Held s n) (nest : Nest) (level : ℕ)
    (hroom : (n + 2 * nest.pairs : ℤ) ≤ intMax) :
    ∃ visits s', nest.exec level s = .ok (visits, s') ∧ Held s' (n + 2 * nest.pairs) ∧
      SameContext s s' ∧ ∀ v ∈ visits, v.Inside ∧ level ≤ v.level := by
  induction nest generalizing s n level with
  | nil => exact ⟨[], s, rfl, h, ⟨rfl, rfl, rfl⟩, by simp⟩
  | pair inner rest ihInner ihRest =>
      simp only [Nest.pairs] at hroom ⊢
      push_cast at hroom
      obtain ⟨s₁, hdisable, h₁, hsame₁, hdepths₁⟩ := h.txDisable (by omega)
      obtain ⟨visits, s₂, hinner, h₂, hsame₂, hvisits⟩ := ihInner h₁ (level + 1) (by omega)
      obtain ⟨s₃, hrestore, h₃, hsame₃, hdepths₃⟩ := h₂.txRestore (by push_cast; omega)
      obtain ⟨visits', s₄, hrest, h₄, hsame₄, hvisits'⟩ := ihRest h₃ level (by push_cast; omega)
      refine ⟨⟨level, some .disable, s₁⟩ :: visits ++ ⟨level, none, s₃⟩ :: visits', s₄, ?_, ?_,
        ((hsame₁.trans hsame₂).trans hsame₃).trans hsame₄, ?_⟩
      · simp only [Nest.exec, hdisable, hinner, hrestore, hrest, bind, Except.bind]
      · have htotal : n + 2 * (inner.pairs + rest.pairs + 1) =
            n + 1 + 2 * inner.pairs + 1 + 2 * rest.pairs := by omega
        rw [htotal]
        exact h₄
      · intro v hv
        rcases List.mem_append.mp hv with hv | hv
        · rcases List.mem_cons.mp hv with rfl | hv
          · exact ⟨h₁.inside hdepths₁ level (by simp), le_refl _⟩
          · exact ⟨(hvisits v hv).1, (Nat.le_succ level).trans (hvisits v hv).2⟩
        · rcases List.mem_cons.mp hv with rfl | hv
          · exact ⟨h₃.inside hdepths₃ level (by simp), le_refl _⟩
          · exact hvisits' v hv

/-- A sequence for which the count has no room does not run to its end. -/
theorem Held.exec_overflow (h : Held s n) (hn : (n : ℤ) ≤ intMax) (nest : Nest) (level : ℕ)
    (hlong : intMax < (n + 2 * nest.pairs : ℤ)) : nest.exec level s = .error .overflow := by
  induction nest generalizing s n level with
  | nil =>
      simp only [Nest.pairs] at hlong
      omega
  | pair inner rest ihInner ihRest =>
      simp only [Nest.pairs] at hlong
      push_cast at hlong
      by_cases hdisable : intMax ≤ (n : ℤ)
      · simp only [Nest.exec, h.disable_overflow hdisable, bind, Except.bind]
      · obtain ⟨s₁, hdisable, h₁, -, -⟩ := h.txDisable (by omega)
        by_cases hinner : intMax < (n + 1 + 2 * inner.pairs : ℤ)
        · have hstop := ihInner h₁ (by push_cast; omega) (level + 1) (by push_cast; omega)
          simp only [Nest.exec, hdisable, hstop, bind, Except.bind]
        · obtain ⟨visits, s₂, hinner, h₂, -, -⟩ := h₁.exec inner (level + 1) (by push_cast; omega)
          by_cases hrestore : intMax ≤ (n + 1 + 2 * inner.pairs : ℤ)
          · have hstop := h₂.restore_overflow (by push_cast; omega) .disable
            simp only [Nest.exec, hdisable, hinner, hstop, bind, Except.bind]
          · obtain ⟨s₃, hrestore, h₃, -, -⟩ := h₂.txRestore (by push_cast; omega)
            have hstop := ihRest h₃ (by push_cast; omega) level (by push_cast; omega)
            simp only [Nest.exec, hdisable, hinner, hrestore, hstop, bind, Except.bind]

/-! ## The sections of a thread -/

/-- The pthread runs the current thread, outside of interrupts and outside of a critical section. -/
structure Outside (i : ι) (s : Pthread ι) : Prop extends Counted s 0 where
  thread : s.thread = some i
  currentPtr : s.guarded.currentPtr = some i
  systemState : s.guarded.systemState = 0

/-- A call of a thread: the count is the depth, only the disable that opens an outermost section
returns `TX_INT_ENABLE`, the mutex is held throughout every call but the restores that close such a
section, and after these it is not held and interrupts are not disabled. -/
structure Visit.Correct (i : ι) (v : Visit ι) : Prop where
  lockCount : v.after.lockCount = v.after.depth
  returned : ∀ posture, v.returned = some posture → (posture = .enable ↔ v.level = 0)
  held : v.level ≠ 0 ∨ v.returned.isSome → 1 ≤ v.after.depth ∧ ∀ d ∈ v.after.depths, 1 ≤ d
  closed : v.level = 0 → v.returned = none →
    v.after.depth = 0 ∧ v.after.guarded.intDisabled i = false

omit [DecidableEq ι] in
/-- A call inside an outermost section. -/
theorem Visit.Inside.correct {v : Visit ι} (h : v.Inside) (i : ι) (hlevel : 1 ≤ v.level) :
    v.Correct i where
  lockCount := h.lockCount
  returned := by
    intro posture hreturned
    have hdisable : posture ≠ .enable := fun heq ↦ h.returned (heq ▸ hreturned)
    exact ⟨fun heq ↦ absurd heq hdisable, fun hzero ↦ by omega⟩
  held _ := ⟨h.depth, h.depths⟩
  closed hzero := by omega

variable {i : ι}

/-- The disable that opens an outermost section. -/
theorem Outside.txDisable (h : Outside i s) :
    ∃ s', s.txDisable = .ok (.enable, s') ∧ Held s' 1 ∧ s'.depths = [1] ∧
      SameContext s s' := by
  have hbegin : Counted { s with depths := [] } 0 := ⟨h.depth, h.lockCount⟩
  have halive : ¬ (s.thread ≠ none ∧ s.guarded.currentPtr ≠ s.thread) := by
    rw [h.thread, h.currentPtr]
    exact fun hexit ↦ hexit.2 rfl
  have hzero : ((0 : ℕ) : ℤ) < intMax := by decide
  have hsystem : ¬ s.guarded.systemState ≠ 0 := fun hne ↦ hne h.systemState
  refine ⟨{ s with
    depth := 1
    lockCount := 1
    depths := [1]
    guarded := { s.guarded with
      intDisabled := Function.update s.guarded.intDisabled i true } }, ?_,
    ⟨⟨rfl, rfl⟩, le_refl 1, .inr (h.currentPtr.trans h.thread.symm)⟩, rfl, ⟨rfl, rfl, rfl⟩⟩
  simp only [Pthread.txDisable, Pthread.interruptControl, hbegin.lock hzero, bind, Except.bind,
    if_neg halive, if_neg hsystem]
  rw [h.currentPtr]
  rfl

/-- The restore that closes an outermost section. -/
theorem Held.close (h : Held s n) (hn : (n : ℤ) < intMax) (hthread : s.thread = some i)
    (hcurrent : s.guarded.currentPtr = some i) (hsystem : s.guarded.systemState = 0) :
    ∃ s', s.txRestore .enable = .ok s' ∧ Outside i s' ∧ s'.guarded.intDisabled i = false := by
  have halive : ¬ (s.thread ≠ none ∧ s.guarded.currentPtr ≠ s.thread) := by
    rw [hthread, hcurrent]
    exact fun hexit ↦ hexit.2 rfl
  have hsystem' : ¬ s.guarded.systemState ≠ 0 := fun hne ↦ hne hsystem
  obtain ⟨depths, hunlock⟩ := Counted.recursiveUnlock (n := n + 1) (s := { s with
    depth := n + 1
    lockCount := n + 1
    depths := [n + 1]
    guarded := { s.guarded with
      currentPtr := some i
      intDisabled := Function.update s.guarded.intDisabled i false } }) ⟨rfl, by simp⟩
  have hrestore : s.txRestore .enable = .ok { s with
      depth := 0
      lockCount := 0
      depths := depths
      guarded := { s.guarded with
        currentPtr := some i
        intDisabled := Function.update s.guarded.intDisabled i false } } := by
    simp only [Pthread.txRestore, Pthread.interruptControl, h.begin.lock hn, bind, Except.bind,
      if_neg halive, if_neg hsystem']
    rw [hcurrent]
    dsimp only
    rw [hunlock]
  exact ⟨_, hrestore, ⟨⟨rfl, rfl⟩, hthread, rfl, hsystem⟩, Function.update_self ..⟩

/-- One critical section of a thread. -/
theorem Outside.section (h : Outside i s) (inner : Nest)
    (hroom : (2 * inner.pairs + 2 : ℤ) ≤ intMax) :
    ∃ visits s', (Nest.pair inner .nil).exec 0 s = .ok (visits, s') ∧ Outside i s' ∧
      ∀ v ∈ visits, v.Correct i := by
  obtain ⟨s₁, hdisable, h₁, hdepths₁, hsame₁⟩ := h.txDisable
  obtain ⟨visits, s₂, hinner, h₂, hsame₂, hvisits⟩ := h₁.exec inner 1 (by push_cast; omega)
  have hsame := hsame₁.trans hsame₂
  obtain ⟨s₃, hrestore, h₃, hflag⟩ := h₂.close (by push_cast; omega)
    (hsame.thread.trans h.thread) (hsame.currentPtr.trans h.currentPtr)
    (hsame.systemState.trans h.systemState)
  refine ⟨⟨0, some .enable, s₁⟩ :: visits ++ [⟨0, none, s₃⟩], s₃, ?_, h₃, ?_⟩
  · simp only [Nest.exec, hdisable, hinner, hrestore, bind, Except.bind]
  · intro v hv
    rcases List.mem_append.mp hv with hv | hv
    · rcases List.mem_cons.mp hv with rfl | hv
      · -- The disable that opens the section.
        refine ⟨by rw [h₁.lockCount, h₁.depth], ?_, fun _ ↦ ⟨h₁.depth.ge, ?_⟩, fun _ hnone ↦ ?_⟩
        · intro posture hreturned
          obtain rfl := Option.some.inj hreturned
          exact iff_of_true rfl rfl
        · intro d hd
          rw [show Pthread.depths _ = [1] from hdepths₁, List.mem_singleton] at hd
          exact hd.ge
        · cases hnone
      · exact (hvisits v hv).1.correct i (hvisits v hv).2
    · -- The restore that closes it.
      obtain rfl := List.mem_singleton.mp hv
      refine ⟨by rw [h₃.lockCount, h₃.depth], fun posture hreturned ↦ ?_, fun hheld ↦ ?_,
        fun _ _ ↦ ⟨h₃.depth, hflag⟩⟩
      · cases hreturned
      · rcases hheld with hlevel | hreturned
        · exact absurd rfl hlevel
        · cases hreturned

/-- A thread is current and outside of interrupts when it begins a section. -/
def Calls (i : ι) (guarded : Guarded ι) : Prop :=
  guarded.currentPtr = some i ∧ guarded.systemState = 0

/-- All critical sections of a thread. -/
theorem Counted.sections (h : Counted s 0) (hthread : s.thread = some i)
    (list : List (Guarded ι × Nest)) (hcalls : ∀ p ∈ list, Calls i p.1)
    (hroom : ∀ p ∈ list, (2 * p.2.pairs + 2 : ℤ) ≤ intMax) :
    ∃ visits s', sections list s = .ok (visits, s') ∧ Counted s' 0 ∧
      ∀ v ∈ visits, v.Correct i := by
  induction list generalizing s with
  | nil => exact ⟨[], s, rfl, h, by simp⟩
  | cons p list ih =>
      obtain ⟨guarded, inner⟩ := p
      obtain ⟨hcurrent, hsystem⟩ := hcalls (guarded, inner) (List.mem_cons_self ..)
      have hlong : (2 * inner.pairs + 2 : ℤ) ≤ intMax :=
        hroom (guarded, inner) (List.mem_cons_self ..)
      have hbegin : Outside i { s with guarded := guarded } :=
        ⟨⟨h.depth, h.lockCount⟩, hthread, hcurrent, hsystem⟩
      obtain ⟨visits, s₁, hfirst, h₁, hvisits⟩ := hbegin.section inner hlong
      obtain ⟨visits', s₂, hrest, h₂, hvisits'⟩ := ih h₁.toCounted h₁.thread
        (fun p hp ↦ hcalls p (List.mem_cons_of_mem _ hp))
        (fun p hp ↦ hroom p (List.mem_cons_of_mem _ hp))
      refine ⟨visits ++ visits', s₂, ?_, h₂, ?_⟩
      · simp only [ThreadX.sections, hfirst, hrest, bind, Except.bind]
      · intro v hv
        rcases List.mem_append.mp hv with hv | hv
        · exact hvisits v hv
        · exact hvisits' v hv

/-- A section for which the count has no room does not run to its end. -/
theorem Outside.section_overflow (h : Outside i s) (inner : Nest)
    (hlong : intMax < (2 * inner.pairs + 2 : ℤ)) :
    (Nest.pair inner .nil).exec 0 s = .error .overflow := by
  obtain ⟨s₁, hdisable, h₁, -, -⟩ := h.txDisable
  by_cases hinner : intMax < (1 + 2 * inner.pairs : ℤ)
  · have hstop := h₁.exec_overflow (by decide) inner 1 hinner
    simp only [Nest.exec, hdisable, hstop, bind, Except.bind]
  · obtain ⟨visits, s₂, hinner, h₂, -, -⟩ := h₁.exec inner 1 (by push_cast; omega)
    have hstop := h₂.restore_overflow (by push_cast; omega) .enable
    simp only [Nest.exec, hdisable, hinner, hstop, bind, Except.bind]

/-! ## The timer interrupt -/

/-- `_tx_timer_interrupt` in the timer pthread: the calls of the kernel are inside, and the last
unlock undoes the first lock. -/
theorem Counted.timerInterrupt (h : Counted s n) (hthread : s.thread = none) (nest : Nest)
    (hroom : (n + 1 + 2 * nest.pairs : ℤ) ≤ intMax) :
    ∃ visits s', timerInterrupt nest s = .ok (visits, s') ∧ Counted s' (n + 2 * nest.pairs) ∧
      ∀ v ∈ visits, v.Inside := by
  have hheld : Held { s with
      depth := n + 1
      lockCount := n + 1
      depths := (n + 1) :: s.depths } (n + 1) :=
    ⟨⟨rfl, by simp⟩, Nat.le_add_left .., .inl hthread⟩
  obtain ⟨visits, s₂, hexec, h₂, -, hvisits⟩ := hheld.exec nest 0 (by push_cast; omega)
  have hlast : Counted s₂ (n + 2 * nest.pairs + 1) := by
    have htotal : n + 1 + 2 * nest.pairs = n + 2 * nest.pairs + 1 := by omega
    exact htotal ▸ h₂.toCounted
  have hinterrupt : ThreadX.timerInterrupt nest s = .ok (visits, { s₂ with
      depth := n + 2 * nest.pairs
      lockCount := (n + 2 * nest.pairs : ℕ)
      depths := (n + 2 * nest.pairs) :: s₂.depths }) := by
    simp only [ThreadX.timerInterrupt, h.lock (by omega), hexec, hlast.unlock, bind, Except.bind]
  exact ⟨visits, _, hinterrupt, ⟨rfl, rfl⟩, fun v hv ↦ (hvisits v hv).1⟩

/-- What the mutex guards does not count. -/
theorem Counted.guard {ι : Type} {s : Pthread ι} (h : Counted s n) (guarded : Guarded ι) :
    Counted { s with guarded := guarded } n :=
  ⟨h.depth, h.lockCount⟩

omit [DecidableEq ι] in
/-- Waiting for the scheduler keeps the count or leaves it at one. -/
theorem Counted.waitIsr (h : Counted s n) (others : Guarded ι) :
    ∃ m s', waitIsr others s = .ok s' ∧ Counted s' m := by
  rw [ThreadX.waitIsr.eq_def]
  cases s.guarded.executePtr with
  | none => exact ⟨n, s, rfl, h⟩
  | some i =>
      by_cases hwaits : s.guarded.suspensionType i = false
      · obtain ⟨s₁, hrelease, h₁⟩ := h.released
        obtain ⟨s₂, hlock, h₂⟩ := (h₁.guard others).locked (by decide)
        refine ⟨1, s₂, ?_, h₂⟩
        simp only [if_pos hwaits, hrelease, hlock, bind, Except.bind]
      · exact ⟨n, s, if_neg hwaits, h⟩

/-- A preemption ends at some count. -/
theorem Counted.preempt (h : Counted s n) (hn : (n : ℤ) < intMax) (others : Guarded ι) (i : ι) :
    ∃ m s', preempt others i s = .ok s' ∧ Counted s' m := by
  obtain ⟨s₁, hlock, h₁⟩ := (h.guard { s.guarded with
    suspensionType := Function.update s.guarded.suspensionType i true
    currentPtr := none
    timerWaiting := true }).locked hn
  obtain ⟨s₂, hunlock, h₂⟩ := h₁.unlocked
  obtain ⟨m, s₃, hwait, h₃⟩ := h₂.waitIsr others
  refine ⟨m, { s₃ with guarded := { s₃.guarded with timerWaiting := false } }, ?_, h₃.guard _⟩
  simp only [ThreadX.preempt, hlock, hunlock, hwait, bind, Except.bind]

omit [DecidableEq ι] in
/-- Resuming the current thread leaves the count as it was. -/
theorem Counted.resumeCurrent (h : Counted s n) (hn : (n : ℤ) < intMax) :
    ∃ s', resumeCurrent s = .ok s' ∧ Counted s' n := by
  obtain ⟨s₁, hlock, h₁⟩ := h.locked hn
  obtain ⟨s₂, hunlock, h₂⟩ := h₁.unlocked
  refine ⟨s₂, ?_, h₂⟩
  simp only [ThreadX.resumeCurrent, hlock, hunlock, bind, Except.bind]

/-- Leaving the interrupt ends at some count. -/
theorem Counted.leaveInterrupt (h : Counted s n) (hn : (n : ℤ) < intMax) (others : Guarded ι) :
    ∃ m s', leaveInterrupt others s = .ok s' ∧ Counted s' m := by
  have h₁ := h.guard { s.guarded with systemState := s.guarded.systemState - 1 }
  rw [ThreadX.leaveInterrupt.eq_def]
  cases s.guarded.currentPtr with
  | none => exact ⟨n, _, rfl, h₁⟩
  | some i =>
      by_cases houtermost : s.guarded.systemState - 1 = 0
      · by_cases hpreempt : s.guarded.preemptDisable = 0 ∧ s.guarded.executePtr ≠ some i
        · obtain ⟨m, s₂, hrun, h₂⟩ := h₁.preempt hn others i
          exact ⟨m, s₂, (if_pos houtermost).trans ((if_pos hpreempt).trans hrun), h₂⟩
        · obtain ⟨s₂, hrun, h₂⟩ := h₁.resumeCurrent hn
          exact ⟨n, s₂, (if_pos houtermost).trans ((if_neg hpreempt).trans hrun), h₂⟩
      · exact ⟨n, _, if_neg houtermost, h₁⟩

/-- `_tx_thread_context_restore` ends without the mutex. -/
theorem Counted.contextRestore (h : Counted s n) (hn : (n + 2 : ℤ) ≤ intMax)
    (others : Guarded ι) : ∃ s', contextRestore others s = .ok s' ∧ Counted s' 0 := by
  obtain ⟨s₁, hlock, h₁⟩ := h.locked (by omega)
  obtain ⟨m, s₂, hleave, h₂⟩ := h₁.leaveInterrupt (by push_cast; omega) others
  obtain ⟨s₃, hrelease, h₃⟩ := h₂.released
  refine ⟨s₃, ?_, h₃⟩
  simp only [ThreadX.contextRestore, hlock, hleave, hrelease, bind, Except.bind]

/-- The interrupt posture in both contexts. A ThreadX thread, current and outside of interrupts, may
run any critical sections one after another, each with any sequence of pairs in it for which the
count of the locks has room: after every call the count is the depth, only the disable that opens
an outermost section returns `TX_INT_ENABLE`, the mutex is held throughout the section, and after
the restore that closes it the mutex is not held and interrupts are not disabled. In
`_tx_timer_interrupt` every disable of such a sequence returns `TX_INT_DISABLE` and the mutex is
held up to the last unlock, which leaves one lock for every call of the sequence; and
`_tx_thread_context_restore` returns without the mutex. -/
theorem interrupt_posture :
    (∀ (i : ι) (s : Pthread ι) (list : List (Guarded ι × Nest)),
      Counted s 0 → s.thread = some i → (∀ p ∈ list, Calls i p.1) →
      (∀ p ∈ list, (2 * p.2.pairs + 2 : ℤ) ≤ intMax) →
      ∃ visits s', sections list s = .ok (visits, s') ∧ Counted s' 0 ∧
        ∀ v ∈ visits, v.Correct i) ∧
    ∀ (s : Pthread ι) (n : ℕ) (nest : Nest), Counted s n → s.thread = none →
      0 < s.guarded.systemState → (n + 2 * nest.pairs + 2 : ℤ) ≤ intMax →
      ∃ visits s₁, timerInterrupt nest s = .ok (visits, s₁) ∧ (∀ v ∈ visits, v.Inside) ∧
        Counted s₁ (n + 2 * nest.pairs) ∧
        ∀ others, ∃ s₂, contextRestore others s₁ = .ok s₂ ∧ Counted s₂ 0 := by
  refine ⟨fun i s list h hthread hcalls hroom ↦ h.sections hthread list hcalls hroom,
    fun s n nest h hthread _ hroom ↦ ?_⟩
  obtain ⟨visits, s₁, hinterrupt, h₁, hvisits⟩ := h.timerInterrupt hthread nest (by omega)
  exact ⟨visits, s₁, hinterrupt, hvisits, h₁, fun others ↦
    h₁.contextRestore (by push_cast; omega) others⟩

/-- Nothing is going on: the only thread is current. -/
def idle (systemState : ℕ) : Guarded Unit where
  systemState := systemState
  currentPtr := some ()
  executePtr := some ()
  preemptDisable := 0
  timerWaiting := false
  suspensionType := fun _ ↦ false
  intDisabled := fun _ ↦ false
  globalIntDisabled := false

/-- A pthread that has not locked the mutex. -/
def fresh (thread : Option Unit) (systemState : ℕ) : Pthread Unit :=
  ⟨thread, 0, 0, [], idle systemState⟩

/-- Two sections, one of them nested, and an interrupt that runs a pair. -/
theorem interrupt_posture_nested :
    (∃ visits s', sections [(idle 0, .pair .nil .nil), (idle 0, .nil)] (fresh (some ()) 0) =
        .ok (visits, s') ∧ Counted s' 0 ∧ ∀ v ∈ visits, v.Correct ()) ∧
      ∃ visits s₁, timerInterrupt (.pair .nil .nil) (fresh none 1) = .ok (visits, s₁) ∧
        (∀ v ∈ visits, v.Inside) ∧ Counted s₁ 2 ∧
        ∀ others, ∃ s₂, contextRestore others s₁ = .ok s₂ ∧ Counted s₂ 0 := by
  obtain ⟨hthread, htimer⟩ := interrupt_posture (ι := Unit)
  refine ⟨hthread () _ _ ⟨rfl, rfl⟩ rfl ?_ ?_, ?_⟩
  · intro p hp
    simp only [List.mem_cons, List.not_mem_nil, or_false] at hp
    rcases hp with rfl | rfl
    · exact ⟨rfl, rfl⟩
    · exact ⟨rfl, rfl⟩
  · intro p hp
    simp only [List.mem_cons, List.not_mem_nil, or_false] at hp
    rcases hp with rfl | rfl
    · decide
    · decide
  · exact htimer _ 0 (.pair .nil .nil) ⟨rfl, rfl⟩ rfl (by decide) (by decide)

/-! ## Where the two bounds come from -/

/-- Pairs one after another. -/
def Nest.flat : ℕ → Nest
  | 0 => nil
  | n + 1 => pair nil (flat n)

/-- They are as many as asked for. -/
theorem Nest.pairs_flat (n : ℕ) : (flat n).pairs = n := by
  induction n with
  | zero => rfl
  | succ n ih =>
      show 0 + (flat n).pairs + 1 = n + 1
      omega

/-- An interrupt in which the kernel runs no pair ends without the mutex before
`_tx_thread_context_restore` is called; and a section with 2³⁰ pairs in it makes the count overflow,
so that it does not run to its end. -/
theorem empty_interrupt_long_section :
    ¬ (∀ (s : Pthread Unit) (nest : Nest), Counted s 0 → s.thread = none →
      0 < s.guarded.systemState →
      ∃ visits s₁, timerInterrupt nest s = .ok (visits, s₁) ∧ 1 ≤ s₁.depth) ∧
    ¬ ∀ (s : Pthread Unit) (inner : Nest), Counted s 0 → s.thread = some () →
      ∃ visits s', sections [(idle 0, inner)] s = .ok (visits, s') ∧ Counted s' 0 := by
  constructor
  · intro h
    obtain ⟨visits, s₁, hinterrupt, hdepth⟩ := h (fresh none 1) .nil ⟨rfl, rfl⟩ rfl (by decide)
    have hzero : timerInterrupt .nil (fresh none 1) =
        .ok ([], { fresh none 1 with depths := [0, 1] }) := rfl
    rw [hzero] at hinterrupt
    cases hinterrupt
    exact absurd hdepth (by decide)
  · intro h
    obtain ⟨inner, hpairs⟩ : ∃ inner : Nest, inner.pairs = 2 ^ 30 := ⟨_, Nest.pairs_flat _⟩
    obtain ⟨visits, s', hrun, -⟩ := h (fresh (some ()) 0) inner ⟨rfl, rfl⟩ rfl
    have houtside : Outside () { fresh (some ()) 0 with guarded := idle 0 } :=
      ⟨⟨rfl, rfl⟩, rfl, rfl, rfl⟩
    have hstop := houtside.section_overflow inner (by rw [hpairs]; decide)
    simp only [sections, hstop, bind, Except.bind] at hrun
    cases hrun

end ThreadMetric.ThreadX
