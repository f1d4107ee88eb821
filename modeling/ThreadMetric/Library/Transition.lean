import Mathlib.Algebra.Group.Action.Defs
import Mathlib.Algebra.Group.Submonoid.Defs
import Mathlib.Logic.Relation

/-!
# Runs of event-driven machines

A machine is a function `next : σ → α → Option σ`: in a given state an event is either enabled
and fixes the successor, or it is not enabled. All nondeterminism lies in the choice of events.
`run` executes a list of events, `ReachableWhere` collects the states of all runs whose steps
meet a side condition, and `ReachableWhere.invariant` is the induction rule that every safety
result over runs goes through. `reachable_shift` is its form for machines that repeat the same
finitely many states with larger counters.
-/

namespace Transition

universe u v w

variable {σ : Type u} {α : Type v} {τ : Type w}

/-- Execute the events in order; an event that is not enabled stops the run. -/
def run (next : σ → α → Option σ) : List α → σ → Option σ
  | [], state => some state
  | event :: events, state => next state event >>= run next events

/-- The states of all finite runs from `start` in which every step, taken in `state` on `event`,
satisfies `allowed state event`. -/
inductive ReachableWhere (next : σ → α → Option σ) (allowed : σ → α → Prop) (start : σ) :
    σ → Prop where
  | refl : ReachableWhere next allowed start start
  | tail {state finish : σ} (event : α) :
      ReachableWhere next allowed start state → allowed state event →
      next state event = some finish → ReachableWhere next allowed start finish

/-- The states of all finite runs from `start`. -/
abbrev Reachable (next : σ → α → Option σ) (start : σ) : σ → Prop :=
  ReachableWhere next (fun _ _ ↦ True) start

variable {next : σ → α → Option σ} {allowed : σ → α → Prop} {start state finish : σ}

/-- A property of the start that every allowed step preserves holds in every state reached. -/
theorem ReachableWhere.invariant (hreach : ReachableWhere next allowed start finish)
    (holds : σ → Prop) (hstart : holds start)
    (hstep : ∀ state event finish, holds state → allowed state event →
      next state event = some finish → holds finish) : holds finish := by
  induction hreach with
  | refl => exact hstart
  | tail event _ hallowed hnext ih => exact hstep _ event _ ih hallowed hnext

/-- Weakening the side condition keeps every run. -/
theorem ReachableWhere.mono {permitted : σ → α → Prop}
    (hreach : ReachableWhere next allowed start finish)
    (himp : ∀ state event, allowed state event → permitted state event) :
    ReachableWhere next permitted start finish := by
  induction hreach with
  | refl => exact .refl
  | tail event _ hallowed hnext ih => exact .tail event ih (himp _ _ hallowed) hnext

/-- A run that meets a side condition is a run. -/
theorem ReachableWhere.reachable (hreach : ReachableWhere next allowed start finish) :
    Reachable next start finish :=
  hreach.mono fun _ _ _ ↦ trivial

/-- Runs compose. -/
theorem ReachableWhere.trans (hfirst : ReachableWhere next allowed start state)
    (hrest : ReachableWhere next allowed state finish) :
    ReachableWhere next allowed start finish := by
  induction hrest with
  | refl => exact hfirst
  | tail event _ hallowed hnext ih => exact .tail event ih hallowed hnext

/-- A run that goes anywhere begins with a step. -/
theorem Reachable.head_cases (hreach : Reachable next start finish) :
    start = finish ∨ ∃ event middle, next start event = some middle ∧
      Reachable next middle finish := by
  induction hreach with
  | refl => exact .inl rfl
  | tail event _ _ hnext ih =>
      right
      rcases ih with rfl | ⟨first, middle, hfirst, hrest⟩
      · exact ⟨event, _, hnext, .refl⟩
      · exact ⟨first, middle, hfirst, hrest.tail event trivial hnext⟩

/-- A machine with at most one event goes from every state on its way to the state in which it
stops. -/
theorem Reachable.stops [Subsingleton α] (hreach : Reachable next start state)
    (hfinish : Reachable next start finish) (hstop : ∀ event, next finish event = none) :
    Reachable next state finish := by
  induction hreach with
  | refl => exact hfinish
  | tail event _ _ hnext ih =>
      rcases ih.head_cases with rfl | ⟨other, middle, hother, hrest⟩
      · exact absurd ((hstop event).symm.trans hnext) (by simp)
      · rw [Subsingleton.elim other event] at hother
        obtain rfl := Option.some.inj (hother.symm.trans hnext)
        exact hrest

/-- A loop that comes back to its start with a smaller count is left. -/
theorem reachable_countdown (loop : ℕ → σ → Prop)
    (hround : ∀ left state, loop (left + 1) state →
      ∃ later, Reachable next state later ∧ loop left later) {left : ℕ}
    (hstart : loop left start) : ∃ finish, Reachable next start finish ∧ loop 0 finish := by
  induction left generalizing start with
  | zero => exact ⟨start, .refl, hstart⟩
  | succ left ih =>
      obtain ⟨later, hlater, hloop⟩ := hround left start hstart
      obtain ⟨finish, hfinish, hdone⟩ := ih hloop
      exact ⟨finish, hlater.trans hfinish, hdone⟩

/-- An executed list of events that are allowed in every state ends in a state so reached. -/
theorem reachable_where_of_run (events : List α)
    (hallowed : ∀ event ∈ events, ∀ state, allowed state event)
    (hrun : run next events start = some finish) : ReachableWhere next allowed start finish := by
  induction events generalizing start with
  | nil =>
      cases hrun
      exact .refl
  | cons event events ih =>
      simp only [run, Option.bind_eq_bind, Option.bind_eq_some_iff] at hrun
      obtain ⟨middle, hnext, hrest⟩ := hrun
      obtain ⟨hfirst, hothers⟩ := List.forall_mem_cons.mp hallowed
      exact (ReachableWhere.tail event .refl (hfirst start) hnext).trans (ih hothers hrest)

/-- An executed list of events ends in a reachable state. -/
theorem reachable_of_run {events : List α} (hrun : run next events start = some finish) :
    Reachable next start finish :=
  reachable_where_of_run events (fun _ _ _ ↦ trivial) hrun

/-- A property of the events taken so far and of the state they lead to holds at the end of a run
if it holds at its start and every further step preserves it. -/
theorem run_history (holds : List α → σ → Prop) (hstart : holds [] start)
    (hstep : ∀ events state event finish, holds events state →
      next state event = some finish → holds (events ++ [event]) finish)
    {events : List α} (hrun : run next events start = some finish) : holds events finish := by
  suffices h : ∀ later taken state, holds taken state → run next later state = some finish →
      holds (taken ++ later) finish from h events [] start hstart hrun
  intro later
  induction later with
  | nil =>
      intro taken state htaken hlater
      cases hlater
      rwa [List.append_nil]
  | cons event later ih =>
      intro taken state htaken hlater
      simp only [run, Option.bind_eq_bind, Option.bind_eq_some_iff] at hlater
      obtain ⟨middle, hnext, hrest⟩ := hlater
      have h := ih (taken ++ [event]) middle (hstep _ _ _ _ htaken hnext) hrest
      rwa [List.append_assoc] at h

/-- If the machine goes on under an invariant until it stops, and every step makes a measure
smaller, then a run of at most that many steps stops. -/
theorem run_until {holds : σ → Prop} (stop : σ → Prop) (measure : σ → ℕ)
    (hstep : ∀ state, holds state → ¬ stop state → ∃ event finish,
      next state event = some finish ∧ holds finish ∧ measure finish < measure state)
    (hstart : holds start) :
    ∃ events finish, events.length ≤ measure start ∧ run next events start = some finish ∧
      stop finish := by
  generalize hbound : measure start = bound
  induction bound using Nat.strongRecOn generalizing start with
  | ind bound ih =>
      by_cases hstop : stop start
      · exact ⟨[], start, Nat.zero_le _, rfl, hstop⟩
      · obtain ⟨event, middle, hnext, hmiddle, hless⟩ := hstep start hstart hstop
        rw [hbound] at hless
        obtain ⟨events, finish, hlength, hrun, hfinish⟩ := ih _ hless hmiddle rfl
        refine ⟨event :: events, finish, ?_, ?_, hfinish⟩
        · rw [List.length_cons]
          omega
        · simp only [run, hnext, Option.bind_eq_bind, Option.bind_some, hrun]

/-- If every step makes a measure smaller, no run is longer than the measure at its start. -/
theorem run_length_le (measure : σ → ℕ)
    (hstep : ∀ state event finish, next state event = some finish →
      measure finish < measure state)
    {events : List α} (hrun : run next events start = some finish) :
    events.length ≤ measure start := by
  induction events generalizing start with
  | nil => exact Nat.zero_le _
  | cons event events ih =>
      simp only [run, Option.bind_eq_bind, Option.bind_eq_some_iff] at hrun
      obtain ⟨middle, hnext, hrest⟩ := hrun
      have hless := hstep start event middle hnext
      have hlength := ih hrest
      rw [List.length_cons]
      omega

/-- If every step that stays inside a region makes a measure smaller, a run that is longer than the
measure leaves the region on its way. -/
theorem run_leaves (holds : σ → Prop) (measure : σ → ℕ)
    (hstep : ∀ state event finish, holds state → next state event = some finish →
      holds finish → measure finish < measure state)
    {events : List α} (hrun : run next events start = some finish)
    (hlong : measure start < events.length) :
    ∃ before after middle, events = before ++ after ∧ run next before start = some middle ∧
      ¬ holds middle := by
  induction events generalizing start with
  | nil => exact absurd hlong (Nat.not_lt_zero _)
  | cons event events ih =>
      by_cases hstart : holds start
      · simp only [run, Option.bind_eq_bind, Option.bind_eq_some_iff] at hrun
        obtain ⟨second, hnext, hrest⟩ := hrun
        by_cases hsecond : holds second
        · have hless := hstep start event second hstart hnext hsecond
          rw [List.length_cons] at hlong
          obtain ⟨before, after, middle, rfl, hbefore, hmiddle⟩ := ih hrest (by omega)
          refine ⟨event :: before, after, middle, rfl, ?_, hmiddle⟩
          simp only [run, hnext, Option.bind_eq_bind, Option.bind_some, hbefore]
        · refine ⟨[event], events, second, rfl, ?_, hsecond⟩
          simp only [run, hnext, Option.bind_eq_bind, Option.bind_some]
      · exact ⟨[], event :: events, start, rfl, rfl, hstart⟩

/-- Along a projection under which every step is either invisible or a step of the simpler
machine, reachable states project to reachable states. -/
theorem ReachableWhere.project {β : Type v} {simple : τ → β → Option τ} (view : σ → τ)
    (hreach : ReachableWhere next allowed start finish)
    (hstep : ∀ state event finish, next state event = some finish →
      view finish = view state ∨ ∃ event', simple (view state) event' = some (view finish)) :
    Reachable simple (view start) (view finish) := by
  induction hreach with
  | refl => exact .refl
  | tail event _ _ hnext ih =>
      rcases hstep _ _ _ hnext with hsame | ⟨event', hsimple⟩
      · rwa [hsame]
      · exact .tail event' ih trivial hsimple

/-- A machine whose steps commute with an action, such as shifting all counters, reaches only
shifts of a list of states that is closed under its steps up to the shifts in `shifts`. -/
theorem reachable_shift {μ : Type*} [AddMonoid μ] [AddAction μ σ] (shifts : AddSubmonoid μ)
    {states : List σ}
    (hcomm : ∀ (k : μ) state event, next (k +ᵥ state) event = (next state event).map (k +ᵥ ·))
    (hstart : start ∈ states)
    (hclosed : ∀ state ∈ states, ∀ event, ∀ finish ∈ next state event,
      ∃ k ∈ shifts, ∃ state' ∈ states, finish = k +ᵥ state')
    (hreach : Reachable next start finish) :
    ∃ k ∈ shifts, ∃ state ∈ states, finish = k +ᵥ state := by
  induction hreach with
  | refl => exact ⟨0, shifts.zero_mem, start, hstart, (zero_vadd μ start).symm⟩
  | tail event _ _ hnext ih =>
      obtain ⟨k, hk, state, hstate, rfl⟩ := ih
      rw [hcomm, Option.map_eq_some_iff] at hnext
      obtain ⟨middle, hmiddle, rfl⟩ := hnext
      obtain ⟨l, hl, state', hstate', rfl⟩ := hclosed state hstate event middle hmiddle
      exact ⟨k + l, shifts.add_mem hk hl, state', hstate', (add_vadd k l state').symm⟩

/-! ## Conditions along a run -/

/-- Every state of the run has the property, from its start to its end or to an event that is not
enabled. -/
def Throughout (next : σ → α → Option σ) (holds : σ → Prop) : List α → σ → Prop
  | [], state => holds state
  | event :: events, state =>
      holds state ∧ ∀ finish, next state event = some finish →
        Throughout next holds events finish

/-- Every step of the run meets the side condition. -/
def EveryStep (next : σ → α → Option σ) (allowed : σ → α → Prop) : List α → σ → Prop
  | [], _ => True
  | event :: events, state =>
      ∀ finish, next state event = some finish →
        allowed state event ∧ EveryStep next allowed events finish

/-- Such a condition can be checked by executing the events. -/
def EveryStep.decide [∀ state event, Decidable (allowed state event)] :
    (events : List α) → (state : σ) → Decidable (EveryStep next allowed events state)
  | [], _ => isTrue trivial
  | event :: events, state =>
      match hnext : next state event with
      | none => isTrue fun finish hfinish ↦ by rw [hnext] at hfinish; cases hfinish
      | some middle =>
          have := EveryStep.decide events middle
          decidable_of_iff (allowed state event ∧ EveryStep next allowed events middle) <| by
            simp only [EveryStep, hnext, Option.some.injEq, forall_eq']

instance [∀ state event, Decidable (allowed state event)] (events : List α) (state : σ) :
    Decidable (EveryStep next allowed events state) :=
  EveryStep.decide events state

/-- An executed list of events whose steps meet a side condition ends in a state so reached. -/
theorem EveryStep.reachable_where {events : List α} (h : EveryStep next allowed events start)
    (hrun : run next events start = some finish) : ReachableWhere next allowed start finish := by
  induction events generalizing start with
  | nil =>
      cases hrun
      exact .refl
  | cons event events ih =>
      simp only [run, Option.bind_eq_bind, Option.bind_eq_some_iff] at hrun
      obtain ⟨middle, hnext, hrest⟩ := hrun
      obtain ⟨hallowed, hsteps⟩ := h middle hnext
      exact (ReachableWhere.tail event .refl hallowed hnext).trans (ih hsteps hrest)

/-- Where steps that meet a side condition preserve an invariant, and the invariant makes a step
meet it exactly if the property holds afterwards, the property holds throughout a run exactly if
every step of it meets the side condition. -/
theorem throughout_iff (inv : σ → Prop) {holds : σ → Prop}
    (hholds : ∀ state, inv state → holds state)
    (hkeep : ∀ state event finish, inv state → allowed state event →
      next state event = some finish → inv finish)
    (hneeded : ∀ state event finish, inv state → next state event = some finish →
      holds finish → allowed state event)
    (events : List α) (hstart : inv start) :
    Throughout next holds events start ↔ EveryStep next allowed events start := by
  induction events generalizing start with
  | nil => exact iff_of_true (hholds start hstart) trivial
  | cons event events ih =>
      constructor
      · rintro ⟨-, hrest⟩ finish hnext
        have hfinish : holds finish := by
          cases events with
          | nil => exact hrest finish hnext
          | cons later events => exact (hrest finish hnext).1
        have hallowed := hneeded start event finish hstart hnext hfinish
        exact ⟨hallowed, (ih (hkeep _ _ _ hstart hallowed hnext)).mp (hrest finish hnext)⟩
      · intro hsteps
        refine ⟨hholds start hstart, fun finish hnext ↦ ?_⟩
        obtain ⟨hallowed, hrest⟩ := hsteps finish hnext
        exact (ih (hkeep _ _ _ hstart hallowed hnext)).mpr hrest

end Transition
