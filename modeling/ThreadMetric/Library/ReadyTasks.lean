import Mathlib.Data.Finset.Basic
import Mathlib.Data.Finset.Image
import Mathlib.Data.Finset.Max
import Mathlib.Logic.Function.Basic

/-!
# Ready tasks

A scheduler knows the tasks that have been created, which of them are ready, and whether it has
been started. From then on it runs a ready task than which no other is more urgent. Kernels differ
in which of several equals that is, and `Selects` leaves it open; it is settled where one task is
ahead of all others. Kernels also differ in the names of their tasks and in the direction of their
priorities: `Mirrors` relates two schedulers that do the same under other names and priorities, and
every operation keeps it.
-/

namespace ReadyTasks

variable {ι κ A : Type*} [DecidableEq ι] [DecidableEq κ]

/-- What a task is created with: its priority and what it executes. -/
structure Task (A : Type*) where
  priority : ℕ
  entry : A
  deriving DecidableEq

/-- The tasks that have been created, the ready ones, and whether the scheduler has been started. -/
@[ext]
structure Scheduler (ι A : Type*) where
  task : ι → Option (Task A)
  ready : Finset ι
  started : Bool
  created : ∀ t ∈ ready, (task t).isSome = true

namespace Scheduler

/-- No task has been created. -/
def empty : Scheduler ι A where
  task _ := none
  ready := ∅
  started := false
  created _ hmem := absurd hmem (Finset.notMem_empty _)

/-- Create a task that is not ready. -/
def create (s : Scheduler ι A) (t : ι) (task : Task A) : Scheduler ι A where
  task := Function.update s.task t (some task)
  ready := s.ready
  started := s.started
  created u hmem := by
    by_cases hu : u = t
    · rw [hu, Function.update_self]
      rfl
    · rw [Function.update_of_ne hu]
      exact s.created u hmem

/-- A task becomes ready, if it exists. -/
def wake (s : Scheduler ι A) (t : ι) : Scheduler ι A :=
  if h : (s.task t).isSome = true then
    { s with
      ready := insert t s.ready
      created := by
        intro u hmem
        rcases Finset.mem_insert.mp hmem with rfl | hmem
        · exact h
        · exact s.created u hmem }
  else s

/-- A task is no longer ready. -/
def sleep (s : Scheduler ι A) (t : ι) : Scheduler ι A where
  task := s.task
  ready := s.ready.erase t
  started := s.started
  created u hmem := s.created u (Finset.mem_of_mem_erase hmem)

/-- The scheduler starts. -/
def start (s : Scheduler ι A) : Scheduler ι A where
  task := s.task
  ready := s.ready
  started := true
  created := s.created

variable {s : Scheduler ι A} {t u : ι}

/-- A task that has been created. -/
theorem create_task_self (s : Scheduler ι A) (t : ι) (task : Task A) :
    (s.create t task).task t = some task :=
  Function.update_self ..

/-- A creation leaves the other tasks alone. -/
theorem create_task_of_ne (s : Scheduler ι A) (task : Task A) (hne : u ≠ t) :
    (s.create t task).task u = s.task u :=
  Function.update_of_ne hne ..

/-- The tasks after a creation. -/
theorem create_isSome_iff {task : Task A} :
    ((s.create t task).task u).isSome = true ↔ u = t ∨ (s.task u).isSome = true := by
  by_cases hu : u = t
  · rw [hu, create_task_self]
    exact iff_of_true rfl (.inl rfl)
  · rw [create_task_of_ne s task hu]
    exact (or_iff_right hu).symm

/-- The ready tasks after one has become ready. -/
theorem wake_ready (hcreated : (s.task t).isSome = true) :
    (s.wake t).ready = insert t s.ready := by
  rw [wake, dif_pos hcreated]

/-- Nothing happens to a task that is ready. -/
theorem wake_of_ready (hready : t ∈ s.ready) : s.wake t = s := by
  rw [wake, dif_pos (s.created t hready)]
  exact Scheduler.ext rfl (Finset.insert_eq_of_mem hready) rfl

@[simp] theorem wake_task (s : Scheduler ι A) (t : ι) : (s.wake t).task = s.task := by
  unfold wake
  split <;> rfl

@[simp] theorem wake_started (s : Scheduler ι A) (t : ι) : (s.wake t).started = s.started := by
  unfold wake
  split <;> rfl

/-- A task created as ready and then suspended is created suspended. -/
theorem sleep_wake_create (hnew : s.task t = none) (task : Task A) :
    ((s.create t task).wake t).sleep t = s.create t task := by
  have hready : t ∉ s.ready := by
    intro hmem
    have hcreated := s.created t hmem
    rw [hnew] at hcreated
    cases hcreated
  have hcreated : ((s.create t task).task t).isSome = true := create_isSome_iff.mpr (.inl rfl)
  refine Scheduler.ext (wake_task _ t) ?_ (wake_started _ t)
  show ((s.create t task).wake t).ready.erase t = s.ready
  rw [wake_ready hcreated]
  exact Finset.erase_insert hready

/-! ## The task that runs -/

section Urgent

variable (urgent : ℕ → ℕ → Prop) [DecidableRel urgent]

/-- Both tasks exist and the first is more urgent. -/
def before (s : Scheduler ι A) (t u : ι) : Bool :=
  (s.task t).any fun a ↦ (s.task u).any fun b ↦ urgent a.priority b.priority

/-- A ready task than which no other is more urgent. -/
def MostUrgent (s : Scheduler ι A) (t : ι) : Prop :=
  t ∈ s.ready ∧ ∀ u ∈ s.ready, s.before urgent u t = false

/-- A ready task that is more urgent than all others. -/
def Ahead (s : Scheduler ι A) (t : ι) : Prop :=
  t ∈ s.ready ∧ ∀ u ∈ s.ready, u ≠ t → s.before urgent t u = true

instance (s : Scheduler ι A) : DecidablePred (s.MostUrgent urgent) :=
  fun _ ↦ inferInstanceAs (Decidable (_ ∧ ∀ _ ∈ _, _ = _))

instance (s : Scheduler ι A) : DecidablePred (s.Ahead urgent) :=
  fun _ ↦ inferInstanceAs (Decidable (_ ∧ ∀ _ ∈ _, _ → _ = _))

/-- What a scheduler may run once it has been started: what one of the most urgent ready tasks
executes, or none of the tasks if they have no more than the priorities `idle` of the kernel's own
tasks. -/
def Selects (idle : ℕ → Prop) (s : Scheduler ι A) (running : Option A) : Prop :=
  s.started = true →
    match running with
    | none => ∀ t ∈ s.ready, ∃ a, s.task t = some a ∧ idle a.priority
    | some entry => ∃ t, s.MostUrgent urgent t ∧ (s.task t).map Task.entry = some entry

variable {urgent} {idle : ℕ → Prop}

omit [DecidableEq ι] in
/-- A task that is ahead of all others runs. -/
theorem Ahead.runs {running : Option A} {a : Task A} (h : s.Ahead urgent t)
    (htask : s.task t = some a) (hidle : ¬ idle a.priority) (hstarted : s.started = true)
    (hselects : s.Selects urgent idle running) : running = some a.entry := by
  have hruns := hselects hstarted
  cases running with
  | none =>
      obtain ⟨b, hb, hpriority⟩ := hruns t h.1
      rw [htask, Option.some.injEq] at hb
      exact absurd (hb ▸ hpriority) hidle
  | some entry =>
      obtain ⟨u, hu, hentry⟩ := hruns
      obtain rfl : u = t := by
        by_contra hne
        exact absurd ((hu.2 t h.1).symm.trans (h.2 u hu.1 hne)) (by decide)
      rw [htask] at hentry
      exact hentry.symm

omit [DecidableEq ι] in
/-- Where the priorities are ordered, one of the ready tasks is a most urgent one. -/
theorem exists_most_urgent {α : Type*} [LinearOrder α] (f : ℕ → α)
    (horder : ∀ p q, urgent p q ↔ f p < f q) (hready : s.ready.Nonempty) :
    ∃ t, s.MostUrgent urgent t := by
  obtain ⟨t, ht, hleast⟩ := s.ready.exists_min_image
    (fun t ↦ f (((s.task t).map Task.priority).getD 0)) hready
  refine ⟨t, ht, fun u hu ↦ ?_⟩
  obtain ⟨a, ha⟩ := Option.isSome_iff_exists.mp (s.created t ht)
  obtain ⟨b, hb⟩ := Option.isSome_iff_exists.mp (s.created u hu)
  have hle := hleast u hu
  simp only [ha, hb, Option.map_some, Option.getD_some] at hle
  rw [before, ha, hb]
  exact decide_eq_false fun hurgent ↦ absurd ((horder _ _).mp hurgent) (not_lt.mpr hle)

/-- What the first most urgent of these tasks executes. -/
def select (urgent : ℕ → ℕ → Prop) [DecidableRel urgent] (s : Scheduler ι A) (tasks : List ι) :
    Option A :=
  (tasks.find? fun t ↦ s.MostUrgent urgent t).bind fun t ↦ (s.task t).map Task.entry

/-- A scheduler may run it, if all ready tasks are among them. -/
theorem selects_select {α : Type*} [LinearOrder α] (f : ℕ → α)
    (horder : ∀ p q, urgent p q ↔ f p < f q) {tasks : List ι} (hall : ∀ t ∈ s.ready, t ∈ tasks) :
    s.Selects urgent idle (s.select urgent tasks) := by
  intro _
  rw [select]
  cases hfind : tasks.find? fun t ↦ s.MostUrgent urgent t with
  | none =>
      intro t ht
      obtain ⟨u, hu⟩ := exists_most_urgent f horder ⟨t, ht⟩
      exact absurd hu (by simpa using List.find?_eq_none.mp hfind u (hall u hu.1))
  | some t =>
      have ht : s.MostUrgent urgent t := by simpa using List.find?_some hfind
      obtain ⟨a, ha⟩ := Option.isSome_iff_exists.mp (s.created t ht.1)
      rw [Option.bind_some, ha]
      exact ⟨t, ht, by rw [ha]; rfl⟩

end Urgent

end Scheduler

/-! ## Other names and priorities -/

/-- The second scheduler has the tasks of the first under the names `name`, with the priorities
`rank`, and the same ones are ready. -/
structure Mirrors (name : ι → κ) (rank : ℕ → ℕ) (valid : ℕ → Prop) (s : Scheduler ι A)
    (s' : Scheduler κ A) : Prop where
  ready : s'.ready = s.ready.image name
  started : s'.started = s.started
  task : ∀ t a, s.task t = some a → s'.task (name t) = some ⟨rank a.priority, a.entry⟩
  valid : ∀ t a, s.task t = some a → valid a.priority
  injective : ∀ t u, (s.task t).isSome = true → (s.task u).isSome = true → name t = name u → t = u

namespace Mirrors

variable {name : ι → κ} {rank : ℕ → ℕ} {valid : ℕ → Prop} {s : Scheduler ι A}
  {s' : Scheduler κ A} {t : ι}

omit [DecidableEq ι] in
/-- Two schedulers without tasks. -/
theorem empty : Mirrors name rank valid (Scheduler.empty : Scheduler ι A) Scheduler.empty where
  ready := rfl
  started := rfl
  task _ _ h := by cases h
  valid _ _ h := by cases h
  injective _ _ h := by cases h

omit [DecidableEq ι] in
/-- A task that exists does so under its other name. -/
theorem isSome (h : Mirrors name rank valid s s') (hcreated : (s.task t).isSome = true) :
    (s'.task (name t)).isSome = true := by
  obtain ⟨a, ha⟩ := Option.isSome_iff_exists.mp hcreated
  rw [h.task t a ha]
  rfl

/-- A new task, under a new name. -/
theorem create (h : Mirrors name rank valid s s') {n : κ} {a : Task A} (hnew : s.task t = none)
    (hname : s'.task n = none) (ha : valid a.priority) :
    Mirrors (Function.update name t n) rank valid (s.create t a)
      (s'.create n ⟨rank a.priority, a.entry⟩) := by
  have hne : ∀ u, (s.task u).isSome = true → u ≠ t ∧ name u ≠ n := by
    intro u hu
    refine ⟨fun heq ↦ ?_, fun heq ↦ ?_⟩
    · rw [heq, hnew] at hu
      cases hu
    · have hsome := h.isSome hu
      rw [heq, hname] at hsome
      cases hsome
  have hold : ∀ u, (s.task u).isSome = true → Function.update name t n u = name u :=
    fun u hu ↦ Function.update_of_ne (hne u hu).1 ..
  have htask : ∀ u b, (s.create t a).task u = some b → (u = t ∧ b = a) ∨ s.task u = some b := by
    intro u b hu
    by_cases hut : u = t
    · left
      refine ⟨hut, ?_⟩
      rw [hut, Scheduler.create_task_self] at hu
      exact (Option.some.inj hu).symm
    · right
      rwa [Scheduler.create_task_of_ne s a hut] at hu
  refine ⟨?_, h.started, fun u b hu ↦ ?_, fun u b hu ↦ ?_, fun u v hu hv heq ↦ ?_⟩
  · show s'.ready = s.ready.image _
    rw [h.ready]
    exact Finset.image_congr fun u hu ↦ (hold u (s.created u hu)).symm
  · rcases htask u b hu with ⟨rfl, rfl⟩ | hb
    · rw [Function.update_self]
      exact Scheduler.create_task_self ..
    · have hsome : (s.task u).isSome = true := Option.isSome_iff_exists.mpr ⟨b, hb⟩
      rw [hold u hsome]
      exact (Scheduler.create_task_of_ne s' _ (hne u hsome).2).trans (h.task u b hb)
  · rcases htask u b hu with ⟨-, rfl⟩ | hb
    · exact ha
    · exact h.valid u b hb
  · rcases Scheduler.create_isSome_iff.mp hu with rfl | hu'
    · rcases Scheduler.create_isSome_iff.mp hv with rfl | hv'
      · rfl
      · rw [Function.update_self, hold v hv'] at heq
        exact absurd heq.symm (hne v hv').2
    · rcases Scheduler.create_isSome_iff.mp hv with rfl | hv'
      · rw [Function.update_self, hold u hu'] at heq
        exact absurd heq (hne u hu').2
      · rw [hold u hu', hold v hv'] at heq
        exact h.injective u v hu' hv' heq

/-- A task becomes ready. -/
theorem wake (h : Mirrors name rank valid s s') (hcreated : (s.task t).isSome = true) :
    Mirrors name rank valid (s.wake t) (s'.wake (name t)) where
  ready := by
    rw [Scheduler.wake_ready hcreated, Scheduler.wake_ready (h.isSome hcreated), h.ready,
      Finset.image_insert]
  started := by rw [Scheduler.wake_started, Scheduler.wake_started, h.started]
  task := by simpa only [Scheduler.wake_task] using h.task
  valid := by simpa only [Scheduler.wake_task] using h.valid
  injective := by simpa only [Scheduler.wake_task] using h.injective

/-- A task is no longer ready. -/
theorem sleep (h : Mirrors name rank valid s s') (hcreated : (s.task t).isSome = true) :
    Mirrors name rank valid (s.sleep t) (s'.sleep (name t)) where
  ready := by
    show s'.ready.erase (name t) = (s.ready.erase t).image name
    rw [h.ready]
    ext n
    simp only [Finset.mem_erase, Finset.mem_image]
    constructor
    · rintro ⟨hne, u, hu, rfl⟩
      exact ⟨u, ⟨fun heq ↦ hne (congrArg name heq), hu⟩, rfl⟩
    · rintro ⟨u, ⟨hne, hu⟩, rfl⟩
      exact ⟨fun heq ↦ hne (h.injective u t (s.created u hu) hcreated heq), u, hu, rfl⟩
  started := h.started
  task := h.task
  valid := h.valid
  injective := h.injective

omit [DecidableEq ι] in
/-- The schedulers start. -/
theorem start (h : Mirrors name rank valid s s') :
    Mirrors name rank valid s.start s'.start where
  ready := h.ready
  started := rfl
  task := h.task
  valid := h.valid
  injective := h.injective

section Urgent

variable {urgent urgent' : ℕ → ℕ → Prop} [DecidableRel urgent] [DecidableRel urgent']
  {idle idle' : ℕ → Prop}

omit [DecidableEq ι] in
/-- What the second scheduler may run, the first may. -/
theorem selects (h : Mirrors name rank valid s s')
    (horder : ∀ p q, valid p → valid q → (urgent' (rank p) (rank q) ↔ urgent p q))
    (hidle : ∀ p, valid p → idle' (rank p) → idle p) {running : Option A}
    (hselects : s'.Selects urgent' idle' running) : s.Selects urgent idle running := by
  intro hstarted
  have hruns := hselects (h.started.trans hstarted)
  cases running with
  | none =>
      intro t ht
      obtain ⟨a, ha⟩ := Option.isSome_iff_exists.mp (s.created t ht)
      obtain ⟨b, hb, hpriority⟩ := hruns (name t) (h.ready ▸ Finset.mem_image_of_mem name ht)
      rw [h.task t a ha, Option.some.injEq] at hb
      subst hb
      exact ⟨a, ha, hidle _ (h.valid t a ha) hpriority⟩
  | some entry =>
      obtain ⟨n, ⟨hn, hleast⟩, hentry⟩ := hruns
      rw [h.ready] at hn hleast
      obtain ⟨t, ht, rfl⟩ := Finset.mem_image.mp hn
      obtain ⟨a, ha⟩ := Option.isSome_iff_exists.mp (s.created t ht)
      rw [h.task t a ha] at hentry
      refine ⟨t, ⟨ht, fun u hu ↦ ?_⟩, by rw [ha]; exact hentry⟩
      obtain ⟨b, hb⟩ := Option.isSome_iff_exists.mp (s.created u hu)
      rw [← hleast (name u) (Finset.mem_image_of_mem name hu), Scheduler.before,
        Scheduler.before, ha, hb, h.task t a ha, h.task u b hb]
      exact decide_eq_decide.mpr (horder _ _ (h.valid u b hb) (h.valid t a ha)).symm

end Urgent

end Mirrors

end ReadyTasks
