import ThreadMetric.Ports.ThreadServices

/-!
# Interchanging the threads of the ports

`Threads` is what tm_api.h says about threads: which have been created with which entry functions
and priorities, and which are ready. Both ports are simulated by it; they differ in whether they
refuse to resume a thread that is ready. `threads_agree_iff` says that nothing else tells the ports
apart, and that they run the same entry function where one thread is ahead of all others.
-/

namespace ThreadMetric.Ports

open FreeRTOS ReadyTasks Services

variable {E H K K' S T : Type}

/-- The threads of a test under the ids and priorities of tm_api.h, where 1 is the most urgent
priority, and the interrupt thread with the priority 0, if there is one. -/
structure Threads (E : Type) where
  entryFunctions : ℕ → Option E
  scheduler : Scheduler Thread Thread
  entry : ∀ id, (entryFunctions id).isSome = (scheduler.task (.test id)).isSome
  executes : ∀ thread a, scheduler.task thread = some a → a.entry = thread

namespace Threads

/-- No thread has been created. -/
def empty : Threads E where
  entryFunctions _ := none
  scheduler := .empty
  entry _ := rfl
  executes _ _ h := by cases h

/-- A thread of the scheduler after a creation executes its own code. -/
theorem executes_create (t : Threads E) (new : Thread) (priority : ℕ) (thread : Thread)
    (a : ReadyTasks.Task Thread)
    (h : (t.scheduler.create new ⟨priority, new⟩).task thread = some a) : a.entry = thread := by
  by_cases hthread : thread = new
  · subst hthread
    rw [Scheduler.create_task_self, Option.some.injEq] at h
    exact (congrArg ReadyTasks.Task.entry h).symm
  · rw [Scheduler.create_task_of_ne _ _ hthread] at h
    exact t.executes thread a h

/-- Create a suspended thread. -/
def create (t : Threads E) (id priority : ℕ) (entryFunction : E) : Threads E where
  entryFunctions := Function.update t.entryFunctions id (some entryFunction)
  scheduler := t.scheduler.create (.test id) ⟨priority, .test id⟩
  entry n := by
    by_cases hn : n = id
    · rw [hn, Function.update_self, Scheduler.create_task_self]
      rfl
    · have hthread : Thread.test n ≠ .test id := fun heq ↦ hn (Thread.test.inj heq)
      rw [Function.update_of_ne hn, Scheduler.create_task_of_ne _ _ hthread, t.entry]
  executes := t.executes_create (.test id) priority

/-- Create the interrupt thread, which is ready. -/
def createInterrupt (t : Threads E) : Threads E where
  entryFunctions := t.entryFunctions
  scheduler := (t.scheduler.create .interrupt ⟨0, .interrupt⟩).wake .interrupt
  entry n := by
    have hthread : Thread.test n ≠ .interrupt := nofun
    rw [Scheduler.wake_task, Scheduler.create_task_of_ne _ _ hthread, t.entry]
  executes thread a h := by
    rw [Scheduler.wake_task] at h
    exact t.executes_create .interrupt 0 thread a h

/-- Resume a thread. -/
def resume (t : Threads E) (id : ℕ) : Threads E where
  entryFunctions := t.entryFunctions
  scheduler := t.scheduler.wake (.test id)
  entry n := by rw [t.entry, Scheduler.wake_task]
  executes := by simpa only [Scheduler.wake_task] using t.executes

/-- Suspend a thread. -/
def suspend (t : Threads E) (id : ℕ) : Threads E where
  entryFunctions := t.entryFunctions
  scheduler := t.scheduler.sleep (.test id)
  entry := t.entry
  executes := t.executes

/-- The kernel starts. -/
def start (t : Threads E) : Threads E where
  entryFunctions := t.entryFunctions
  scheduler := t.scheduler.start
  entry := t.entry
  executes := t.executes

/-- The services, where `refuses` says whether a ready thread cannot be resumed. -/
def api (refuses : Bool) : ThreadApi E (Threads E) where
  tmThreadCreate threadId priority entryFunction t :=
    if RefusedCreate 10 threadId priority then (.error, t)
    else (.success, t.create threadId.toNat priority.toNat entryFunction)
  tmThreadResume threadId t :=
    if RefusedId 10 threadId then (.error, t)
    else if refuses = true ∧ .test threadId.toNat ∈ t.scheduler.ready then (.error, t)
    else (.success, t.resume threadId.toNat)
  tmThreadSuspend threadId t :=
    if RefusedId 10 threadId then (.error, t) else (.success, t.suspend threadId.toNat)
  tmThreadRelinquish t := t
  start t := some t.start
  created t id := (t.entryFunctions id).isSome
  started t := t.scheduler.started

/-- What a thread runs. -/
def code (t : Threads E) (thread : Thread) : Option (Code E) :=
  thread.code t.entryFunctions

/-- The kernel has been started and the thread is ready and more urgent than every other ready
thread. With the least urgent priority it would still share the processor with the idle task of
FreeRTOS. -/
structure Leads (t : Threads E) (thread : Thread) : Prop where
  started : t.scheduler.started = true
  ahead : t.scheduler.Ahead (· < ·) thread
  priority : ∀ a, t.scheduler.task thread = some a → a.priority < 31

instance (t : Threads E) : DecidablePred t.Leads :=
  fun thread ↦ decidable_of_iff (t.scheduler.started = true ∧
      t.scheduler.Ahead (· < ·) thread ∧ ∀ a ∈ t.scheduler.task thread, a.priority < 31)
    ⟨fun ⟨h₁, h₂, h₃⟩ ↦ ⟨h₁, h₂, h₃⟩, fun ⟨h₁, h₂, h₃⟩ ↦ ⟨h₁, h₂, h₃⟩⟩

/-- What a kernel runs that runs a most urgent thread. -/
theorem Leads.runs {t : Threads E} {thread : Thread} {idle : ℕ → Prop} {running : Option Thread}
    (h : t.Leads thread) (hidle : ∀ p, idle p → 31 ≤ p)
    (hselects : t.scheduler.Selects (· < ·) idle running) : running = some thread := by
  obtain ⟨a, ha⟩ := Option.isSome_iff_exists.mp (t.scheduler.created thread h.ahead.1)
  have hurgent : ¬ idle a.priority := fun hpriority ↦
    absurd (h.priority a ha) (Nat.not_lt.mpr (hidle _ hpriority))
  rw [h.ahead.runs ha hurgent h.started hselects, t.executes thread a ha]

end Threads

/-! ## Simulations -/

/-- Every permitted call has the same status in related states of two ports and leads to related
states. -/
structure ThreadApi.Simulated (api : ThreadApi E S) (api' : ThreadApi E T)
    (related : S → T → Prop) : Prop where
  created : ∀ {s t}, related s t → ∀ id, api.created s id = api'.created t id
  started : ∀ {s t}, related s t → api.started s = api'.started t
  create : ∀ {s t}, related s t → ∀ {threadId priority} entryFunction,
    ¬ RefusedCreate 10 threadId priority → api'.created t threadId.toNat = false →
    (api.tmThreadCreate threadId priority entryFunction s).1 =
        (api'.tmThreadCreate threadId priority entryFunction t).1 ∧
      related (api.tmThreadCreate threadId priority entryFunction s).2
        (api'.tmThreadCreate threadId priority entryFunction t).2
  refused_create : ∀ {s t} {threadId priority} entryFunction, RefusedCreate 10 threadId priority →
    api.tmThreadCreate threadId priority entryFunction s = (.error, s) ∧
      api'.tmThreadCreate threadId priority entryFunction t = (.error, t)
  resume : ∀ {s t}, related s t → ∀ {threadId}, ¬ RefusedId 10 threadId →
    api'.created t threadId.toNat = true →
    (api.tmThreadResume threadId s).1 = (api'.tmThreadResume threadId t).1 ∧
      related (api.tmThreadResume threadId s).2 (api'.tmThreadResume threadId t).2
  suspend : ∀ {s t}, related s t → ∀ {threadId}, ¬ RefusedId 10 threadId →
    api'.created t threadId.toNat = true →
    (api.tmThreadSuspend threadId s).1 = (api'.tmThreadSuspend threadId t).1 ∧
      related (api.tmThreadSuspend threadId s).2 (api'.tmThreadSuspend threadId t).2
  refused : ∀ {s t} {threadId}, RefusedId 10 threadId →
    (api.tmThreadResume threadId s = (.error, s) ∧ api.tmThreadSuspend threadId s = (.error, s)) ∧
      api'.tmThreadResume threadId t = (.error, t) ∧ api'.tmThreadSuspend threadId t = (.error, t)
  relinquish : ∀ {s t}, related s t → api'.started t = true →
    related (api.tmThreadRelinquish s) (api'.tmThreadRelinquish t)
  start : ∀ {s t}, related s t → api'.started t = false →
    Option.Rel related (api.start s) (api'.start t)

namespace ThreadApi.Simulated

variable {api : ThreadApi E S} {api' : ThreadApi E T} {related : S → T → Prop} {s : S} {t : T}

/-- The same calls are permitted. -/
theorem permitted_iff (h : api.Simulated api' related) (hrelated : related s t)
    (call : ThreadCall E) : api.Permitted s call ↔ api'.Permitted t call := by
  cases call with
  | create | resume | suspend | relinquish | start =>
      simp only [Permitted, h.created hrelated, h.started hrelated]

/-- Answers with the same status and related states. -/
def Corresponding (related : S → T → Prop) (answer : Option Status × S)
    (answer' : Option Status × T) : Prop :=
  answer.1 = answer'.1 ∧ related answer.2 answer'.2

/-- A permitted call. -/
theorem answer (h : api.Simulated api' related) (hrelated : related s t) {call : ThreadCall E}
    (hpermitted : api'.Permitted t call) :
    Option.Rel (Corresponding related) (api.answer s call) (api'.answer t call) := by
  cases call with
  | create threadId priority entryFunction =>
      by_cases hrefused : RefusedCreate 10 threadId priority
      · obtain ⟨hs, ht⟩ := h.refused_create (s := s) (t := t) entryFunction hrefused
        simp only [ThreadApi.answer, hs, ht]
        exact .some ⟨rfl, hrelated⟩
      · obtain ⟨hstatus, hnext⟩ :=
          h.create hrelated entryFunction hrefused (hpermitted.resolve_left hrefused).1
        exact .some ⟨congrArg some hstatus, hnext⟩
  | resume threadId =>
      by_cases hrefused : RefusedId 10 threadId
      · obtain ⟨⟨hs, -⟩, ht, -⟩ := h.refused (s := s) (t := t) hrefused
        simp only [ThreadApi.answer, hs, ht]
        exact .some ⟨rfl, hrelated⟩
      · obtain ⟨hstatus, hnext⟩ :=
          h.resume hrelated hrefused (hpermitted.resolve_left hrefused)
        exact .some ⟨congrArg some hstatus, hnext⟩
  | suspend threadId =>
      by_cases hrefused : RefusedId 10 threadId
      · obtain ⟨⟨-, hs⟩, -, ht⟩ := h.refused (s := s) (t := t) hrefused
        simp only [ThreadApi.answer, hs, ht]
        exact .some ⟨rfl, hrelated⟩
      · obtain ⟨hstatus, hnext⟩ :=
          h.suspend hrelated hrefused (hpermitted.resolve_left hrefused)
        exact .some ⟨congrArg some hstatus, hnext⟩
  | relinquish => exact .some ⟨rfl, h.relinquish hrelated hpermitted⟩
  | start =>
      have hstarts := h.start hrelated hpermitted
      simp only [ThreadApi.answer]
      generalize api.start s = started, api'.start t = started' at hstarts ⊢
      cases hstarts with
      | some hnext => exact .some ⟨rfl, hnext⟩
      | none => exact .none

/-- One call. -/
theorem next (h : api.Simulated api' related) (hrelated : related s t) (call : ThreadCall E) :
    Option.Rel (Corresponding related) (api.next s call) (api'.next t call) := by
  by_cases hpermitted : api'.Permitted t call
  · rw [ThreadApi.next, ThreadApi.next, if_pos hpermitted,
      if_pos ((h.permitted_iff hrelated call).mpr hpermitted)]
    exact h.answer hrelated hpermitted
  · rw [ThreadApi.next, ThreadApi.next, if_neg hpermitted,
      if_neg fun hs ↦ hpermitted ((h.permitted_iff hrelated call).mp hs)]
    exact .none

/-- A sequence of calls. -/
theorem outcomes_eq (h : api.Simulated api' related) (hrelated : related s t)
    (calls : List (ThreadCall E)) :
    outcomes api.next calls s = outcomes api'.next calls t :=
  outcomes_eq_of_simulation related (fun call hrelated ↦ h.next hrelated call) calls hrelated

/-- The states after a sequence of calls. -/
theorem final (h : api.Simulated api' related) (hrelated : related s t)
    (calls : List (ThreadCall E)) :
    Option.Rel related (final api.next calls s) (final api'.next calls t) :=
  final_of_simulation related (fun call hrelated ↦ h.next hrelated call) calls hrelated

end ThreadApi.Simulated

/-! ## The ports -/

/-- The ThreadX port is in the state of the threads. -/
structure ThreadXThreads.Models {k : ThreadXThreads K} (h : k.Documented) (s : ThreadXPort E K)
    (t : Threads E) : Prop where
  entryFunctions : s.entryFunctions = t.entryFunctions
  kernel : h.holds t.scheduler s.kernel

/-- The threads that a port can create. -/
def Threads.all : List Thread :=
  .interrupt :: (List.range 10).map .test

/-- The FreeRTOS port is in the state of the threads, with its own handles and priorities. -/
structure FreeRTOSTasks.Models [DecidableEq H] {k : FreeRTOSTasks H K} (h : k.Documented)
    (s : FreeRTOSPort E H K) (t : Threads E) : Prop where
  entryFunctions : s.entryFunctions = t.entryFunctions
  kernel : ∃ tasks : Scheduler H Thread, h.holds tasks s.kernel ∧
    Mirrors s.handle (31 - ·) (· ≤ 31) t.scheduler tasks ∧
    ∀ handle, (tasks.task handle).isSome = true →
      ∃ thread ∈ Threads.all, (t.scheduler.task thread).isSome = true ∧ s.handle thread = handle

/-- A thread that has been created is a task of the scheduler. -/
theorem Threads.task_of_created {refuses : Bool} {t : Threads E} {id : ℕ}
    (h : (Threads.api refuses).created t id = true) :
    (t.scheduler.task (.test id)).isSome = true :=
  (t.entry id).symm.trans h

/-- A thread that has not been created is none. -/
theorem Threads.task_of_not_created {refuses : Bool} {t : Threads E} {id : ℕ}
    (h : (Threads.api refuses).created t id = false) : t.scheduler.task (.test id) = none := by
  have hnone : (t.scheduler.task (.test id)).isSome = false := (t.entry id).symm.trans h
  cases htask : t.scheduler.task (.test id) with
  | none => rfl
  | some task =>
      rw [htask] at hnone
      cases hnone

/-- The ThreadX port refuses to resume a ready thread. -/
theorem ThreadXThreads.simulated {k : ThreadXThreads K} (h : k.Documented) :
    (k.api : ThreadApi E _).Simulated (Threads.api true) (Models h) where
  created hm id := congrArg Option.isSome (congrFun hm.entryFunctions id)
  started hm := h.started hm.kernel
  create {s t} hm {threadId priority} entryFunction haccepted hnew := by
    have htask : t.scheduler.task (.test threadId.toNat) = none := Threads.task_of_not_created hnew
    have hpriority : priority.toNat < 32 := by
      unfold RefusedCreate at haccepted
      omega
    obtain ⟨kernel', hcreate, hkernel⟩ :=
      h.create (.test threadId.toNat) false hm.kernel htask hpriority
    have hcond : ¬ RefusedCreate tmThreadxMaxThreads threadId priority := haccepted
    have hs : k.tmThreadCreate threadId priority entryFunction s = (.success,
        ⟨Function.update s.entryFunctions threadId.toNat (some entryFunction), kernel'⟩) := by
      rw [tmThreadCreate, if_neg hcond]
      simp only [hcreate, if_true]
    have ht : (Threads.api true).tmThreadCreate threadId priority entryFunction t =
        (.success, t.create threadId.toNat priority.toNat entryFunction) := if_neg haccepted
    simp only [api, hs, ht]
    exact ⟨trivial, by rw [hm.entryFunctions]; rfl, hkernel⟩
  refused_create entryFunction hrefused := ⟨if_pos hrefused, if_pos hrefused⟩
  resume {s t} hm {threadId} haccepted hcreated := by
    have htask := Threads.task_of_created hcreated
    have hid : ¬ (threadId < 0 ∨ tmThreadxMaxThreads ≤ threadId) := haccepted
    by_cases hready : .test threadId.toNat ∈ t.scheduler.ready
    · obtain ⟨code, kernel', hcode, hresume, hkernel⟩ := h.resume_ready hm.kernel hready
      have ht : (Threads.api true).tmThreadResume threadId t = (.error, t) :=
        (if_neg haccepted).trans (if_pos ⟨rfl, hready⟩)
      simp only [api, tmThreadResume, checked, if_neg hid, hresume, if_neg hcode, ht]
      exact ⟨trivial, hm.entryFunctions, hkernel⟩
    · obtain ⟨kernel', hresume, hkernel⟩ := h.resume_suspended hm.kernel htask hready
      have ht : (Threads.api true).tmThreadResume threadId t =
          (.success, t.resume threadId.toNat) :=
        (if_neg haccepted).trans (if_neg fun hrefuses ↦ hready hrefuses.2)
      simp only [api, tmThreadResume, checked, if_neg hid, hresume, if_true, ht]
      exact ⟨trivial, hm.entryFunctions, hkernel⟩
  suspend {s t} hm {threadId} haccepted hcreated := by
    have hid : ¬ (threadId < 0 ∨ tmThreadxMaxThreads ≤ threadId) := haccepted
    obtain ⟨kernel', hsuspend, hkernel⟩ :=
      h.suspend hm.kernel (Threads.task_of_created hcreated)
    have ht : (Threads.api true).tmThreadSuspend threadId t =
        (.success, t.suspend threadId.toNat) := if_neg haccepted
    simp only [api, tmThreadSuspend, checked, if_neg hid, hsuspend, if_true, ht]
    exact ⟨trivial, hm.entryFunctions, hkernel⟩
  refused hrefused :=
    ⟨⟨if_pos hrefused, if_pos hrefused⟩, if_pos hrefused, if_pos hrefused⟩
  relinquish hm hstarted := ⟨hm.entryFunctions, h.relinquish hm.kernel hstarted⟩
  start hm hstarted := .some ⟨hm.entryFunctions, h.schedule hm.kernel hstarted⟩

/-- What the ThreadX port runs when one thread is ahead of all others. -/
theorem ThreadXThreads.running_models {k : ThreadXThreads K} {h : k.Documented}
    {s : ThreadXPort E K} {t : Threads E} (hm : Models h s t) {thread : Thread}
    (hleads : t.Leads thread) : k.running s = t.code thread := by
  have hexecuting : k.executing s.kernel = some thread :=
    hleads.runs (fun _ ↦ False.elim) (h.executing hm.kernel)
  rw [running, hexecuting]
  exact congrArg thread.code hm.entryFunctions

/-- The order of the priorities after the mapping of the FreeRTOS port. -/
theorem rank_order (p q : ℕ) (hp : p ≤ 31) (hq : q ≤ 31) : 31 - p > 31 - q ↔ p < q := by
  omega

/-- A new thread of the FreeRTOS port is known by its handle. -/
theorem FreeRTOSPort.handle_update (s : FreeRTOSPort E H K) (id : ℕ) (handle : H)
    (entryFunctions : ℕ → Option E) (kernel : K) :
    ({ s with
        entryFunctions := entryFunctions
        threadArray := Function.update s.threadArray id handle
        kernel := kernel } : FreeRTOSPort E H K).handle =
      Function.update s.handle (.test id) handle := by
  funext thread
  cases thread with
  | interrupt =>
      have hthread : Thread.interrupt ≠ .test id := nofun
      rw [Function.update_of_ne hthread]
      rfl
  | test n =>
      show Function.update s.threadArray id handle n = _
      by_cases hn : n = id
      · rw [hn, Function.update_self, Function.update_self]
      · have hthread : Thread.test n ≠ .test id := fun heq ↦ hn (Thread.test.inj heq)
        rw [Function.update_of_ne hn, Function.update_of_ne hthread]
        rfl

/-- A new task of the FreeRTOS kernel, and with it all tasks, are threads of the port. -/
theorem FreeRTOSTasks.known_create {tasks : Scheduler H Thread} [DecidableEq H]
    {scheduler : Scheduler Thread Thread} {name : Thread → H} {new : Thread} {handle : H}
    {a b : ReadyTasks.Task Thread} (hnew : scheduler.task new = none) (hall : new ∈ Threads.all)
    (hknown : ∀ handle, (tasks.task handle).isSome = true →
      ∃ thread ∈ Threads.all, (scheduler.task thread).isSome = true ∧ name thread = handle)
    (other : H) (hother : ((tasks.create handle a).task other).isSome = true) :
    ∃ thread ∈ Threads.all, ((scheduler.create new b).task thread).isSome = true ∧
      Function.update name new handle thread = other := by
  rcases Scheduler.create_isSome_iff.mp hother with rfl | hother
  · exact ⟨new, hall, Scheduler.create_isSome_iff.mpr (.inl rfl), Function.update_self ..⟩
  · obtain ⟨thread, hthread, hexists, hname⟩ := hknown other hother
    have hne : thread ≠ new := by
      intro heq
      rw [heq, hnew] at hexists
      cases hexists
    exact ⟨thread, hthread, Scheduler.create_isSome_iff.mpr (.inr hexists),
      (Function.update_of_ne hne ..).trans hname⟩

/-- While a thread has not been created, there is memory for its task. -/
theorem FreeRTOSTasks.HasMemory.create [DecidableEq H] {k : FreeRTOSTasks H K} {h : k.Documented}
    (hmemory : HasMemory h) {s : FreeRTOSPort E H K} {t : Threads E} (hm : Models h s t)
    {new : Thread} (hall : new ∈ Threads.all) (hnew : t.scheduler.task new = none)
    (entry : Thread) (priority : ℕ) : (k.xTaskCreate entry priority s.kernel).1 ≠ none := by
  obtain ⟨tasks, hholds, -, hknown⟩ := hm.kernel
  refine hmemory.task _ _ ((Threads.all.filter fun thread ↦
    (t.scheduler.task thread).isSome).map s.handle) _ _ hholds (fun handle hhandle ↦ ?_) ?_
  · obtain ⟨thread, hthread, hcreated, rfl⟩ := hknown handle hhandle
    exact List.mem_map_of_mem (List.mem_filter.mpr ⟨hthread, hcreated⟩)
  · rw [List.length_map]
    refine List.length_filter_lt_length_iff_exists.mpr ⟨new, hall, ?_⟩
    rw [hnew]
    exact Bool.false_ne_true

/-- The FreeRTOS port creates a thread unless there is no memory for the task. -/
theorem FreeRTOSTasks.create_cases [DecidableEq H] {k : FreeRTOSTasks H K} {h : k.Documented}
    {s : FreeRTOSPort E H K} {t : Threads E} (hm : Models h s t) {threadId priority : ℤ}
    (entryFunction : E) (haccepted : ¬ RefusedCreate 10 threadId priority)
    (htask : t.scheduler.task (.test threadId.toNat) = none) :
    (¬ HasMemory h ∧ (k.tmThreadCreate threadId priority entryFunction s).1 = .error) ∨
    ∃ s', k.tmThreadCreate threadId priority entryFunction s = (.success, s') ∧
      Models h s' (t.create threadId.toNat priority.toNat entryFunction) := by
  obtain ⟨tasks, hholds, hmirrors, hknown⟩ := hm.kernel
  have hcond : ¬ RefusedCreate tmFreertosMaxThreads threadId priority := haccepted
  obtain ⟨hrank, hpriority, hid⟩ :
      (configMaxPriorities - 1 - priority).toNat = 31 - priority.toNat ∧
        priority.toNat ≤ 31 ∧ threadId.toNat < 10 := by
    unfold RefusedCreate at haccepted
    unfold configMaxPriorities
    omega
  have hall : .test threadId.toNat ∈ Threads.all :=
    List.mem_cons_of_mem _ (List.mem_map_of_mem (List.mem_range.mpr hid))
  simp only [tmThreadCreate, if_neg hcond, hrank]
  cases hcreate : k.xTaskCreate (.test threadId.toNat) (31 - priority.toNat) s.kernel with
  | mk created kernel' =>
      cases created with
      | none =>
          refine .inl ⟨fun hmemory ↦ ?_, rfl⟩
          exact hmemory.create hm hall htask _ _ (congrArg Prod.fst hcreate)
      | some handle =>
          obtain ⟨hnew, hcreated⟩ := h.create hholds (by omega) hcreate
          refine .inr ⟨_, rfl, by rw [hm.entryFunctions]; rfl,
            tasks.create handle ⟨31 - priority.toNat, .test threadId.toNat⟩, ?_, ?_, ?_⟩
          · rw [← Scheduler.sleep_wake_create hnew ⟨31 - priority.toNat, .test threadId.toNat⟩]
            have htest : Thread.test threadId.toNat ≠ .interrupt := nofun
            exact h.suspend hcreated
              ((congrFun (Scheduler.wake_task _ _) _).trans (Scheduler.create_task_self ..)) htest
          · rw [FreeRTOSPort.handle_update]
            exact hmirrors.create (a := ⟨priority.toNat, .test threadId.toNat⟩) htask hnew hpriority
          · rw [FreeRTOSPort.handle_update]
            exact known_create htask hall hknown

/-- The interrupt thread of the FreeRTOS port, once there has been memory for its task. -/
theorem FreeRTOSTasks.interrupt_models [DecidableEq H] {k : FreeRTOSTasks H K} {h : k.Documented}
    {s : FreeRTOSPort E H K} {t : Threads E} (hm : Models h s t)
    (hnew : t.scheduler.task .interrupt = none) {handle : H} {kernel' : K}
    (hcreate : k.xTaskCreate .interrupt 31 s.kernel = (some handle, kernel')) :
    Models h { s with isrTask := handle, kernel := kernel' } t.createInterrupt := by
  obtain ⟨tasks, hholds, hmirrors, hknown⟩ := hm.kernel
  obtain ⟨hfresh, hcreated⟩ := h.create hholds (by decide) hcreate
  have hhandle : ({ s with isrTask := handle, kernel := kernel' } : FreeRTOSPort E H K).handle =
      Function.update s.handle .interrupt handle := by
    funext thread
    cases thread with
    | interrupt =>
        rw [Function.update_self]
        rfl
    | test id =>
        have hthread : Thread.test id ≠ .interrupt := nofun
        rw [Function.update_of_ne hthread]
        rfl
  let a : ReadyTasks.Task Thread := ⟨0, .interrupt⟩
  have hisr : ((t.scheduler.create .interrupt a).task .interrupt).isSome = true :=
    Scheduler.create_isSome_iff.mpr (.inl rfl)
  have hwoken := (hmirrors.create (a := a) hnew hfresh (Nat.zero_le 31)).wake hisr
  rw [Function.update_self] at hwoken
  refine ⟨hm.entryFunctions, _, hcreated, by rw [hhandle]; exact hwoken, fun other hother ↦ ?_⟩
  rw [Scheduler.wake_task] at hother
  obtain ⟨thread, hall, hexists, hname⟩ :=
    known_create (b := a) hnew List.mem_cons_self hknown other hother
  refine ⟨thread, hall, ?_, by rw [hhandle]; exact hname⟩
  rw [Threads.createInterrupt, Scheduler.wake_task]
  exact hexists

/-- A thread of the test in the FreeRTOS kernel. -/
theorem FreeRTOSTasks.task_models [DecidableEq H] {s : FreeRTOSPort E H K} {t : Threads E}
    {tasks : Scheduler H Thread} (hmirrors : Mirrors s.handle (31 - ·) (· ≤ 31) t.scheduler tasks)
    {id : ℕ} (htask : (t.scheduler.task (.test id)).isSome = true) :
    ∃ a, tasks.task (s.threadArray id) = some a ∧ a.entry ≠ .interrupt := by
  obtain ⟨a, ha⟩ := Option.isSome_iff_exists.mp htask
  refine ⟨_, hmirrors.task _ a ha, ?_⟩
  show a.entry ≠ _
  rw [t.executes _ a ha]
  nofun

/-- The FreeRTOS port resumes a thread. -/
theorem FreeRTOSTasks.resume_models [DecidableEq H] {k : FreeRTOSTasks H K} {h : k.Documented}
    {s : FreeRTOSPort E H K} {t : Threads E} (hm : Models h s t) {threadId : ℤ}
    (haccepted : ¬ RefusedId 10 threadId)
    (htask : (t.scheduler.task (.test threadId.toNat)).isSome = true) :
    ∃ s', k.tmThreadResume threadId s = (.success, s') ∧
      Models h s' (t.resume threadId.toNat) := by
  obtain ⟨tasks, hholds, hmirrors, hknown⟩ := hm.kernel
  obtain ⟨a, ha, hentry⟩ := task_models hmirrors htask
  refine ⟨{ s with kernel := k.vTaskResume (s.threadArray threadId.toNat) s.kernel },
    if_neg haccepted, hm.entryFunctions, _, h.resume hholds ha hentry, hmirrors.wake htask,
    fun handle hhandle ↦ ?_⟩
  rw [Scheduler.wake_task] at hhandle
  obtain ⟨thread, hall, hexists, hname⟩ := hknown handle hhandle
  refine ⟨thread, hall, ?_, hname⟩
  rw [Threads.resume, Scheduler.wake_task]
  exact hexists

/-- The kernel of the FreeRTOS port starts unless there is no memory for the idle task. -/
theorem FreeRTOSTasks.start_models [DecidableEq H] {k : FreeRTOSTasks H K} {h : k.Documented}
    {s : FreeRTOSPort E H K} {t : Threads E} (hm : Models h s t)
    (hstarted : t.scheduler.started = false) {kernel' : K}
    (hstart : k.vTaskStartScheduler s.kernel = some kernel') :
    Models h { s with kernel := kernel' } t.start := by
  obtain ⟨tasks, hholds, hmirrors, hknown⟩ := hm.kernel
  exact ⟨hm.entryFunctions, _,
    h.start hholds (hmirrors.started.trans hstarted) hstart, hmirrors.start, hknown⟩

/-- The FreeRTOS port resumes a ready thread without an effect. -/
theorem FreeRTOSTasks.simulated [DecidableEq H] {k : FreeRTOSTasks H K} (h : k.Documented)
    (hmemory : HasMemory h) :
    (k.api : ThreadApi E _).Simulated (Threads.api false) (Models h) where
  created hm id := congrArg Option.isSome (congrFun hm.entryFunctions id)
  started {s t} hm := by
    obtain ⟨tasks, hholds, hmirrors, -⟩ := hm.kernel
    exact (h.started hholds).trans hmirrors.started
  create {s t} hm {threadId priority} entryFunction haccepted hnew := by
    have htask : t.scheduler.task (.test threadId.toNat) = none := Threads.task_of_not_created hnew
    have ht : (Threads.api false).tmThreadCreate threadId priority entryFunction t =
        (.success, t.create threadId.toNat priority.toNat entryFunction) := if_neg haccepted
    rcases create_cases hm entryFunction haccepted htask with ⟨hnone, -⟩ | ⟨s', hs, hm'⟩
    · exact absurd hmemory hnone
    · simp only [api, hs, ht]
      exact ⟨trivial, hm'⟩
  refused_create entryFunction hrefused := ⟨if_pos hrefused, if_pos hrefused⟩
  resume {s t} hm {threadId} haccepted hcreated := by
    obtain ⟨s', hs, hm'⟩ := resume_models hm haccepted (Threads.task_of_created hcreated)
    have ht : (Threads.api false).tmThreadResume threadId t =
        (.success, t.resume threadId.toNat) :=
      (if_neg haccepted).trans (if_neg fun hrefuses ↦ Bool.noConfusion hrefuses.1)
    simp only [api, hs, ht]
    exact ⟨trivial, hm'⟩
  suspend {s t} hm {threadId} haccepted hcreated := by
    obtain ⟨tasks, hholds, hmirrors, hknown⟩ := hm.kernel
    have htask := Threads.task_of_created hcreated
    obtain ⟨a, ha, hentry⟩ := task_models hmirrors htask
    have hs : k.tmThreadSuspend threadId s = (.success,
        { s with kernel := k.vTaskSuspend (s.threadArray threadId.toNat) s.kernel }) :=
      if_neg haccepted
    have ht : (Threads.api false).tmThreadSuspend threadId t =
        (.success, t.suspend threadId.toNat) := if_neg haccepted
    simp only [api, hs, ht]
    exact ⟨trivial, hm.entryFunctions, _, h.suspend hholds ha hentry, hmirrors.sleep htask, hknown⟩
  refused hrefused :=
    ⟨⟨if_pos hrefused, if_pos hrefused⟩, if_pos hrefused, if_pos hrefused⟩
  relinquish hm hstarted := by
    obtain ⟨tasks, hholds, hmirrors, hknown⟩ := hm.kernel
    exact ⟨hm.entryFunctions, _, h.yield hholds (hmirrors.started.trans hstarted), hmirrors, hknown⟩
  start {s t} hm hstarted := by
    obtain ⟨tasks, hholds, -, -⟩ := hm.kernel
    obtain ⟨kernel', hstart⟩ := Option.ne_none_iff_exists'.mp (hmemory.idle _ _ hholds)
    simp only [api, hstart, Option.map_some]
    exact .some (start_models hm hstarted hstart)

/-- What the FreeRTOS port runs when one thread is ahead of all others. -/
theorem FreeRTOSTasks.running_models [DecidableEq H] {k : FreeRTOSTasks H K} {h : k.Documented}
    {s : FreeRTOSPort E H K} {t : Threads E} (hm : Models h s t) {thread : Thread}
    (hleads : t.Leads thread) : k.running s = t.code thread := by
  obtain ⟨tasks, hholds, hmirrors, -⟩ := hm.kernel
  have hselects : t.scheduler.Selects (· < ·) (31 ≤ ·) (k.current s.kernel) :=
    hmirrors.selects rank_order (fun p _ hidle ↦ by omega) (h.current hholds)
  have hcurrent : k.current s.kernel = some thread := hleads.runs (fun _ ↦ id) hselects
  rw [running, hcurrent]
  exact congrArg thread.code hm.entryFunctions

/-! ## Two ports -/

namespace Threads

variable {t : Threads E} {call : ThreadCall E}

/-- The call resumes a thread that is ready. -/
def resumesReady (t : Threads E) : ThreadCall E → Bool
  | .resume threadId =>
      !decide (RefusedId 10 threadId) && decide (.test threadId.toNat ∈ t.scheduler.ready)
  | _ => false

/-- No call resumes a thread that is ready, and all are permitted. -/
def within : List (ThreadCall E) → Threads E → Bool
  | [], _ => true
  | call :: calls, t => !t.resumesReady call && ((api true).next t call).any (within calls ·.2)

/-- Apart from such a call the ports do the same. -/
theorem next_eq (hsuspended : t.resumesReady call = false) :
    (api true).next t call = (api false).next t call := by
  have hanswer : (api true).answer t call = (api false).answer t call := by
    cases call with
    | resume threadId =>
        have hnot : ∀ refuses : Bool, (api refuses).tmThreadResume threadId t =
            if RefusedId 10 threadId then (.error, t) else (.success, t.resume threadId.toNat) := by
          intro refuses
          by_cases hrefused : RefusedId 10 threadId
          · rw [if_pos hrefused]
            exact if_pos hrefused
          · rw [if_neg hrefused]
            refine (if_neg hrefused).trans (if_neg fun h ↦ ?_)
            rw [resumesReady, decide_eq_false hrefused, decide_eq_true h.2] at hsuspended
            cases hsuspended
        simp only [ThreadApi.answer, hnot]
    | _ => rfl
  have hpermitted : (api true).Permitted t call ↔ (api false).Permitted t call := by
    cases call <;> exact Iff.rfl
  by_cases h : (api false).Permitted t call
  · rw [ThreadApi.next, ThreadApi.next, if_pos h, if_pos (hpermitted.mpr h), hanswer]
  · rw [ThreadApi.next, ThreadApi.next, if_neg h, if_neg (mt hpermitted.mp h)]

/-- Such a call, if it is permitted, gets an error from just one port. -/
theorem next_ne (hready : t.resumesReady call = true) :
    ∃ r r', (api true).next t call = some r ∧ (api false).next t call = some r' ∧ r.1 ≠ r'.1 := by
  cases call with
  | resume threadId =>
      rw [resumesReady, Bool.and_eq_true, Bool.not_eq_true', decide_eq_false_iff_not,
        decide_eq_true_eq] at hready
      obtain ⟨haccepted, hmem⟩ := hready
      have hpermitted : ∀ refuses, (api refuses).Permitted t (.resume threadId) :=
        fun refuses ↦ .inr ((t.entry _).trans (t.scheduler.created _ hmem))
      have hrefused : (api true).tmThreadResume threadId t = (.error, t) :=
        (if_neg haccepted).trans (if_pos ⟨rfl, hmem⟩)
      have hdone : (api false).tmThreadResume threadId t = (.success, t.resume threadId.toNat) :=
        (if_neg haccepted).trans (if_neg fun h ↦ Bool.noConfusion h.1)
      refine ⟨_, _, if_pos (hpermitted true), if_pos (hpermitted false), fun heq ↦ ?_⟩
      simp only [hrefused, hdone] at heq
      cases heq
  | create | suspend | relinquish | start => cases hready

/-- A port that refuses to resume ready threads and one that does not have the same outcomes exactly
if no call resumes a ready thread. -/
theorem outcomes_eq_iff (calls : List (ThreadCall E)) (t : Threads E) :
    (∃ bs, outcomes (api true).next calls t = some bs ∧
      outcomes (api false).next calls t = some bs) ↔ within calls t = true := by
  induction calls generalizing t with
  | nil => exact ⟨fun _ ↦ rfl, fun _ ↦ ⟨[], rfl, rfl⟩⟩
  | cons call calls ih =>
      cases hready : t.resumesReady call with
      | true =>
          obtain ⟨r, r', hr, hr', hne⟩ := next_ne hready
          refine iff_of_false (not_agree_cons calls hr hr' hne) ?_
          rw [within, hready]
          exact Bool.false_ne_true
      | false =>
          have hsame := next_eq hready
          cases hnext : (api true).next t call with
          | none =>
              rw [hnext] at hsame
              refine iff_of_false ?_ ?_
              · rintro ⟨bs, hbs, -⟩
                rw [outcomes, hnext] at hbs
                cases hbs
              · rw [within, hready, hnext]
                exact Bool.false_ne_true
          | some r =>
              rw [hnext] at hsame
              rw [agree_cons_iff calls hnext hsame.symm rfl, ih, within, hready, hnext]
              rfl

/-- Such calls lead both ports to the same threads. -/
theorem final_eq {calls : List (ThreadCall E)} (h : within calls t = true) :
    ∃ u, final (api true).next calls t = some u ∧ final (api false).next calls t = some u := by
  induction calls generalizing t with
  | nil => exact ⟨t, rfl, rfl⟩
  | cons call calls ih =>
      rw [within, Bool.and_eq_true, Bool.not_eq_true', Option.any_eq_true] at h
      obtain ⟨hsuspended, r, hr, hrest⟩ := h
      obtain ⟨u, hu, hu'⟩ := ih hrest
      refine ⟨u, ?_, ?_⟩
      · rw [final, hr]
        exact hu
      · rw [final, ← next_eq hsuspended, hr]
        exact hu'

end Threads

/-- A state related to the final one of a port that simulates the threads. -/
theorem related_of_final {related : S → T → Prop} {s : Option S} {t : T}
    (h : Option.Rel related s (some t)) : ∃ s', s = some s' ∧ related s' t := by
  cases h with
  | some hrelated => exact ⟨_, rfl, hrelated⟩

/-- Two ports with the same threads, and memory for all tasks: a sequence of calls of the thread
services that a test may make gets the same statuses from both exactly if no thread is resumed while
it is ready. Then both ports have the same threads afterwards, created with the same entry functions
and priorities and ready or suspended alike, and once the kernel has been started they run the same
code whenever one ready thread is more urgent than all others, unless its priority is the least. -/
theorem threads_agree_iff [DecidableEq H] {k : ThreadXThreads K} {k' : FreeRTOSTasks H K'}
    (hk : k.Documented) (hk' : k'.Documented) (hmemory : FreeRTOSTasks.HasMemory hk')
    {s : ThreadXPort E K} {s' : FreeRTOSPort E H K'} {t : Threads E}
    (hm : ThreadXThreads.Models hk s t) (hm' : FreeRTOSTasks.Models hk' s' t)
    (calls : List (ThreadCall E)) :
    ((∃ bs, outcomes k.api.next calls s = some bs ∧ outcomes k'.api.next calls s' = some bs) ↔
      Threads.within calls t = true) ∧
    (Threads.within calls t = true →
      ∃ r r' u, final k.api.next calls s = some r ∧ final k'.api.next calls s' = some r' ∧
        final (Threads.api true).next calls t = some u ∧ ThreadXThreads.Models hk r u ∧
        FreeRTOSTasks.Models hk' r' u ∧
        ∀ thread, u.Leads thread →
          k.running r = u.code thread ∧ k'.running r' = u.code thread) := by
  have hsimulated := ThreadXThreads.simulated (E := E) hk
  have hsimulated' := FreeRTOSTasks.simulated (E := E) hk' hmemory
  constructor
  · rw [hsimulated.outcomes_eq hm calls, hsimulated'.outcomes_eq hm' calls]
    exact Threads.outcomes_eq_iff calls t
  · intro hwithin
    obtain ⟨u, hu, hu'⟩ := Threads.final_eq hwithin
    have hfinal := hsimulated.final hm calls
    have hfinal' := hsimulated'.final hm' calls
    rw [hu] at hfinal
    rw [hu'] at hfinal'
    obtain ⟨r, hr, hrelated⟩ := related_of_final hfinal
    obtain ⟨r', hr', hrelated'⟩ := related_of_final hfinal'
    exact ⟨r, r', u, hr, hr', hu, hrelated, hrelated', fun thread hleads ↦
      ⟨ThreadXThreads.running_models hrelated hleads,
        FreeRTOSTasks.running_models hrelated' hleads⟩⟩

/-! ## Kernels with ready tasks -/

/-- A ThreadX kernel with the names of its threads. -/
structure NamedThreads where
  names : List Thread
  threads : Scheduler Thread Thread

/-- A ThreadX kernel that runs the first most urgent of its threads. -/
def namedThreadXThreads : ThreadXThreads NamedThreads where
  txThreadCreate thread entry priority _ autoStart k :=
    let created := k.threads.create thread ⟨priority, entry⟩
    (txSuccess, ⟨thread :: k.names, if autoStart then created.wake thread else created⟩)
  txThreadResume thread k :=
    if thread ∈ k.threads.ready then (0x12, k)
    else (txSuccess, { k with threads := k.threads.wake thread })
  txThreadSuspend thread k := (txSuccess, { k with threads := k.threads.sleep thread })
  txThreadRelinquish k := k
  txThreadSchedule k := { k with threads := k.threads.start }
  started k := k.threads.started
  executing k := k.threads.select (· < ·) k.names

/-- It behaves as documented. -/
def namedThreadXThreadsDocumented : namedThreadXThreads.Documented where
  holds s k := k.threads = s ∧ ∀ thread, (s.task thread).isSome = true → thread ∈ k.names
  started hholds := congrArg Scheduler.started hholds.1
  executing {s k} hholds := by
    obtain ⟨rfl, hnames⟩ := hholds
    exact Scheduler.selects_select id (fun _ _ ↦ Iff.rfl)
      fun thread hthread ↦ hnames thread (k.threads.created thread hthread)
  create {s k thread priority} entry autoStart hholds _ _ := by
    obtain ⟨rfl, hnames⟩ := hholds
    refine ⟨_, rfl, rfl, fun other hother ↦ List.mem_cons.mpr ?_⟩
    have hcreated : ((k.threads.create thread ⟨priority, entry⟩).task other).isSome = true := by
      cases autoStart with
      | true => simpa only [if_true, Scheduler.wake_task] using hother
      | false => exact hother
    exact (Scheduler.create_isSome_iff.mp hcreated).imp_right (hnames other)
  resume_suspended {s k id} hholds _ hready := by
    obtain ⟨rfl, hnames⟩ := hholds
    refine ⟨_, if_neg hready, rfl, ?_⟩
    simpa only [Scheduler.wake_task] using hnames
  resume_ready {s k id} hholds hready := by
    obtain ⟨rfl, hnames⟩ := hholds
    exact ⟨0x12, k, by decide, if_pos hready, rfl, hnames⟩
  suspend {s k id} hholds _ := by
    obtain ⟨rfl, hnames⟩ := hholds
    exact ⟨_, rfl, rfl, hnames⟩
  relinquish hholds _ := hholds
  schedule {s k} hholds _ := by
    obtain ⟨rfl, hnames⟩ := hholds
    exact ⟨rfl, hnames⟩

/-- The tasks of a FreeRTOS kernel; `fresh` is the next handle. -/
structure NumberedTasks where
  fresh : ℕ
  tasks : Scheduler ℕ Thread

/-- A FreeRTOS kernel that runs the first most urgent of its tasks. -/
def numberedFreeRTOSTasks : FreeRTOSTasks ℕ NumberedTasks where
  xTaskCreate entry priority k :=
    (some k.fresh, ⟨k.fresh + 1, (k.tasks.create k.fresh ⟨priority, entry⟩).wake k.fresh⟩)
  vTaskResume handle k := { k with tasks := k.tasks.wake handle }
  vTaskSuspend handle k := { k with tasks := k.tasks.sleep handle }
  taskYield k := k
  vTaskStartScheduler k := some { k with tasks := k.tasks.start }
  started k := k.tasks.started
  current k := k.tasks.select (· > ·) (List.range k.fresh)

/-- It behaves as documented. -/
def numberedFreeRTOSTasksDocumented : numberedFreeRTOSTasks.Documented where
  holds s k := k.tasks = s ∧ ∀ handle, k.fresh ≤ handle → s.task handle = none
  started hholds := congrArg Scheduler.started hholds.1
  current {s k} hholds := by
    obtain ⟨rfl, hfresh⟩ := hholds
    refine Scheduler.selects_select OrderDual.toDual (fun _ _ ↦ Iff.rfl) fun handle hready ↦ ?_
    refine List.mem_range.mpr (not_le.mp fun hle ↦ ?_)
    have hcreated := k.tasks.created handle hready
    rw [hfresh handle hle] at hcreated
    cases hcreated
  create {s k k' entry priority handle} hholds _ hcreate := by
    obtain ⟨rfl, hfresh⟩ := hholds
    obtain ⟨hhandle, rfl⟩ := Prod.mk.inj hcreate
    obtain rfl := Option.some.inj hhandle
    refine ⟨hfresh _ le_rfl, rfl, fun other hother ↦ ?_⟩
    have hlt : k.fresh < other := hother
    rw [Scheduler.wake_task, Scheduler.create_task_of_ne _ _ (Nat.ne_of_gt hlt)]
    exact hfresh other (Nat.le_of_lt hlt)
  resume {s k handle a} hholds _ _ := by
    obtain ⟨rfl, hfresh⟩ := hholds
    refine ⟨rfl, fun other hother ↦ ?_⟩
    rw [Scheduler.wake_task]
    exact hfresh other hother
  suspend {s k handle a} hholds _ _ := by
    obtain ⟨rfl, hfresh⟩ := hholds
    exact ⟨rfl, hfresh⟩
  yield hholds _ := hholds
  start {s k k'} hholds _ hstart := by
    obtain ⟨rfl, hfresh⟩ := hholds
    obtain rfl := Option.some.inj hstart
    exact ⟨rfl, hfresh⟩

/-- The ThreadX port before a thread has been created. -/
def namedPort : ThreadXPort E NamedThreads := ⟨fun _ ↦ none, [], .empty⟩

/-- The FreeRTOS port before a thread has been created. -/
def numberedPort : FreeRTOSPort E ℕ NumberedTasks := ⟨fun _ ↦ none, fun _ ↦ 0, 0, 1, .empty⟩

theorem named_port_models :
    ThreadXThreads.Models namedThreadXThreadsDocumented (namedPort : ThreadXPort E _) .empty :=
  ⟨rfl, rfl, fun _ hsome ↦ by cases hsome⟩

theorem numbered_port_models :
    FreeRTOSTasks.Models numberedFreeRTOSTasksDocumented (numberedPort : FreeRTOSPort E ℕ _)
      .empty :=
  ⟨rfl, .empty, ⟨rfl, fun _ _ ↦ rfl⟩, .empty, fun _ hsome ↦ by cases hsome⟩

/-- Three threads are created, of which the reporter runs first, and some calls are refused. -/
def sampleThreadCalls : List (ThreadCall String) :=
  [.create 0 10 "thread 0", .create 1 9 "thread 1", .create 5 2 "report", .create 10 3 "none",
    .create 2 32 "none", .resume 0, .resume 5, .start, .resume 12, .suspend 5, .resume 1,
    .relinquish]

/-- Both ports answer alike, and in the end both run thread 1, which has preempted thread 0. -/
theorem threads_agree_iff_sample :
    (∃ bs, outcomes namedThreadXThreads.api.next sampleThreadCalls namedPort = some bs ∧
      outcomes numberedFreeRTOSTasks.api.next sampleThreadCalls numberedPort = some bs) ∧
    ∃ r r', final namedThreadXThreads.api.next sampleThreadCalls namedPort = some r ∧
      final numberedFreeRTOSTasks.api.next sampleThreadCalls numberedPort = some r' ∧
      namedThreadXThreads.running r = some (.entry "thread 1") ∧
      numberedFreeRTOSTasks.running r' = some (.entry "thread 1") := by
  have hmemory : FreeRTOSTasks.HasMemory numberedFreeRTOSTasksDocumented :=
    ⟨fun _ _ _ _ _ _ _ _ ↦ Option.some_ne_none _, fun _ _ _ ↦ Option.some_ne_none _⟩
  obtain ⟨hiff, hthreads⟩ := threads_agree_iff namedThreadXThreadsDocumented
    numberedFreeRTOSTasksDocumented hmemory named_port_models numbered_port_models
    sampleThreadCalls
  have hwithin : Threads.within sampleThreadCalls .empty = true := by decide
  refine ⟨hiff.mpr hwithin, ?_⟩
  obtain ⟨r, r', u, hr, hr', hu, -, -, hruns⟩ := hthreads hwithin
  have hleads : (final (Threads.api true).next sampleThreadCalls .empty).map
      (fun u ↦ decide (u.Leads (.test 1))) = some true := by decide
  have hcode : (final (Threads.api true).next sampleThreadCalls .empty).map
      (fun u ↦ u.code (.test 1)) = some (some (.entry "thread 1")) := rfl
  rw [hu, Option.map_some, Option.some.injEq] at hleads hcode
  obtain ⟨hrunning, hrunning'⟩ := hruns (.test 1) (of_decide_eq_true hleads)
  exact ⟨r, r', hr, hr', hrunning.trans hcode, hrunning'.trans hcode⟩

end ThreadMetric.Ports
