import Mathlib.Data.Nat.Notation
import Mathlib.Logic.Basic

/-!
# Recursive mutexes

A recursive mutex is free or held by one party, which may have locked it several times. The hold
of a party at a control point is described by a `Hold`, and `Agrees` says that a mutex is as the
hold demands. An operation of one party keeps the holds of all others: `Agrees.lock`,
`Agrees.unlock` and `Agrees.release`.
-/

/-- A recursive mutex; `nested` counts the locks of the owner beyond the first. -/
inductive RecursiveMutex (π : Type) where
  | free
  | held (owner : π) (nested : ℕ)
  deriving DecidableEq

namespace RecursiveMutex

variable {π : Type} [DecidableEq π]

/-- Lock the mutex; `none` if another party holds it. -/
def lock (p : π) : RecursiveMutex π → Option (RecursiveMutex π)
  | free => some (held p 0)
  | held q nested => if q = p then some (held p (nested + 1)) else none

/-- Undo one lock; without effect for a party that is not the owner. -/
def unlock (p : π) : RecursiveMutex π → RecursiveMutex π
  | free => free
  | held q nested =>
      if q = p then if nested = 0 then free else held q (nested - 1)
      else held q nested

/-- Undo all locks of the party. -/
def release (p : π) : RecursiveMutex π → RecursiveMutex π
  | free => free
  | held q nested => if q = p then free else held q nested

/-- The party that holds the mutex. -/
def owner : RecursiveMutex π → Option π
  | free => none
  | held p _ => some p

/-- What a control point of a party says about the mutex: the party does not hold it, holds it
once, holds it, or may or may not hold it. -/
inductive Hold where
  | never
  | once
  | some
  | maybe
  deriving DecidableEq

/-- The mutex is as the hold of `p` demands. -/
def Agrees (m : RecursiveMutex π) (p : π) : Hold → Prop
  | .never => m.owner ≠ Option.some p
  | .once => m = held p 0
  | .some => m.owner = Option.some p
  | .maybe => True

variable {m m' : RecursiveMutex π} {p q : π} {hold : Hold}

omit [DecidableEq π] in
/-- A party that holds the mutex once holds it. -/
theorem Agrees.owner (h : m.Agrees p hold) (hhold : hold = .once ∨ hold = .some) :
    m.owner = some p := by
  rcases hhold with rfl | rfl
  · rw [show m = held p 0 from h]
    rfl
  · exact h

/-- Locking makes the party the owner, and nobody else was the owner before. -/
theorem owner_of_lock (h : m.lock p = some m') :
    m'.owner = some p ∧ (m.owner = none ∨ m.owner = some p) := by
  cases m with
  | free =>
      obtain rfl := Option.some.inj h
      exact ⟨rfl, .inl rfl⟩
  | held q nested =>
      simp only [lock, Option.ite_none_right_eq_some, Option.some.injEq] at h
      obtain ⟨rfl, rfl⟩ := h
      exact ⟨rfl, .inr rfl⟩

/-- A party cannot lock the mutex only while another party holds it. -/
theorem owner_of_lock_eq_none (h : m.lock p = none) : ∃ q ≠ p, m.owner = some q := by
  cases m with
  | free => cases h
  | held q nested =>
      refine ⟨q, fun hq ↦ ?_, rfl⟩
      simp [lock, hq] at h

/-- A party that does not hold the mutex holds it once after locking it. -/
theorem lock_of_never (h : m.lock p = some m') (hnever : m.Agrees p .never) : m' = held p 0 := by
  cases m with
  | free => exact (Option.some.inj h).symm
  | held q nested =>
      simp only [lock, Option.ite_none_right_eq_some] at h
      exact absurd (congrArg some h.1) hnever

/-- Undoing a lock gives the mutex to nobody else. -/
theorem owner_of_unlock (h : (m.unlock p).owner = some q) : m.owner = some q := by
  cases m with
  | free => exact h
  | held r nested =>
      by_cases hr : r = p
      · by_cases hlast : nested = 0
        · simp [unlock, hr, hlast, owner] at h
        · simpa [unlock, hr, hlast, owner] using h
      · simpa [unlock, hr, owner] using h

/-- Releasing gives the mutex to nobody else. -/
theorem owner_of_release (h : (m.release p).owner = some q) : m.owner = some q := by
  cases m with
  | free => exact h
  | held r nested =>
      by_cases hr : r = p
      · simp [release, hr, owner] at h
      · simpa [release, hr, owner] using h

/-- Locking by one party keeps the holds of the others. -/
theorem Agrees.lock (h : m.Agrees q hold) (hne : q ≠ p) (hlock : m.lock p = some m') :
    m'.Agrees q hold := by
  obtain ⟨hafter, hbefore⟩ := owner_of_lock hlock
  have hother : some p ≠ some q := fun heq ↦ hne (Option.some.inj heq).symm
  cases hold with
  | never =>
      show m'.owner ≠ some q
      rw [hafter]
      exact hother
  | maybe => trivial
  | once | some =>
      have howner := h.owner (by simp)
      rw [howner] at hbefore
      rcases hbefore with hfree | hsame
      · cases hfree
      · exact absurd hsame.symm hother

/-- Releasing by one party keeps the holds of the others. -/
theorem Agrees.release (h : m.Agrees q hold) (hne : q ≠ p) : (m.release p).Agrees q hold := by
  cases m with
  | free => exact h
  | held r nested =>
      by_cases hr : r = p
      · subst hr
        have hother : r ≠ q := fun heq ↦ hne heq.symm
        cases hold with
        | never => simp [RecursiveMutex.release, Agrees, RecursiveMutex.owner]
        | maybe => trivial
        | once | some =>
            exact absurd (Option.some.inj (h.owner (by simp))) hother
      · rwa [RecursiveMutex.release, if_neg hr]

/-- Undoing one lock of one party keeps the holds of the others. -/
theorem Agrees.unlock (h : m.Agrees q hold) (hne : q ≠ p) : (m.unlock p).Agrees q hold := by
  cases m with
  | free => exact h
  | held r nested =>
      by_cases hr : r = p
      · subst hr
        have hother : r ≠ q := fun heq ↦ hne heq.symm
        cases hold with
        | never =>
            by_cases hlast : nested = 0 <;>
              simp [RecursiveMutex.unlock, Agrees, RecursiveMutex.owner, hlast, hother]
        | maybe => trivial
        | once | some =>
            exact absurd (Option.some.inj (h.owner (by simp))) hother
      · rwa [RecursiveMutex.unlock, if_neg hr]

/-- From `m` to `m'` the holds of all parties other than `p` are kept. -/
def KeepsOthers (p : π) (m m' : RecursiveMutex π) : Prop :=
  ∀ q hold, q ≠ p → m.Agrees q hold → m'.Agrees q hold

omit [DecidableEq π] in
/-- A mutex that is not touched keeps all holds. -/
theorem KeepsOthers.refl : KeepsOthers p m m := fun _ _ _ h ↦ h

/-- Locking keeps the holds of the others. -/
theorem KeepsOthers.of_lock (hlock : m.lock p = some m') : KeepsOthers p m m' :=
  fun _ _ hne h ↦ h.lock hne hlock

/-- Undoing one lock keeps the holds of the others. -/
theorem KeepsOthers.of_unlock : KeepsOthers p m (m.unlock p) := fun _ _ hne h ↦ h.unlock hne

/-- Releasing keeps the holds of the others. -/
theorem KeepsOthers.of_release : KeepsOthers p m (m.release p) := fun _ _ hne h ↦ h.release hne

omit [DecidableEq π] in
/-- Steps that keep the holds of the others compose. -/
theorem KeepsOthers.trans {m'' : RecursiveMutex π} (h : KeepsOthers p m m')
    (h' : KeepsOthers p m' m'') : KeepsOthers p m m'' :=
  fun q hold hne hagrees ↦ h' q hold hne (h q hold hne hagrees)

/-- After releasing the mutex a party does not hold it. -/
theorem release_never : (m.release p).Agrees p .never := by
  cases m with
  | free => simp [release, Agrees, owner]
  | held q nested =>
      by_cases hq : q = p
      · simp [release, hq, Agrees, owner]
      · simp [release, hq, Agrees, owner]

/-- After undoing its only lock a party does not hold the mutex. -/
theorem unlock_never (h : m.Agrees p .once) : (m.unlock p).Agrees p .never := by
  rw [show m = held p 0 from h]
  simp [unlock, Agrees, owner]

end RecursiveMutex
