import Mathlib.Tactic.SplitIfs
import ThreadMetric.Library.Lines
import ThreadMetric.Library.Transition

/-!
# The QEMU runner

`qemu-run.sh` runs a binary under QEMU. A watchdog in the background kills QEMU when the timeout has
passed, and leaves a file by which the script knows that it did. The machine runs the commands of
the script, those of the watchdog, and QEMU in any order; QEMU may exit at any time or ignore
SIGTERM, and a signal may interrupt the script between any two commands. `exit_status_tells` says
what the exit status means, `only_sleep_left` what the script leaves behind, and `script_ends` that
it does not run forever.

The script dismisses the watchdog with a signal to its shell alone. The `sleep` that this shell
waits for does not get the signal and outlives it: `timeout_sleep_survives`.
-/

namespace ThreadMetric.Ci.QemuRun

open Transition

/-! ## The script -/

/-- One of the flags for QEMU mentions semihosting. -/
def semihosting (args : List (List Char)) : Bool :=
  args.any fun arg ↦ decide ("semihosting".toList <:+: arg)

/-- The commands of the script from `mktemp` on, and of `cleanup`. -/
inductive Pc where
  | mktemp
  | removeStale
  | startQemu
  | noteQemu
  | startWatchdog
  | noteWatchdog
  | waitQemu
  | forgetQemu
  | killWatchdog
  | waitWatchdog
  | forgetWatchdog
  | testFlag
  | removeFlag
  | forgetFlag
  | verdict
  | cleanup
  | cleanupKillWatchdog
  | cleanupWaitWatchdog
  | cleanupForgetWatchdog
  | cleanupTestQemu
  | cleanupTermQemu
  | cleanupSleep
  | cleanupKillQemu
  | cleanupForgetQemu
  | cleanupTestFlag
  | cleanupRemoveFlag
  | done
  deriving DecidableEq

/-- The QEMU process. -/
inductive Qemu where
  | absent
  | running
  | exited (status : ℕ)
  deriving DecidableEq

/-- The commands of the watchdog. -/
inductive Watchdog where
  | absent
  | sleep
  | flag
  | term
  | grace
  | kill
  | exited
  deriving DecidableEq

/-- The `sleep` that the watchdog waits for: until the timeout, or between its two signals. -/
inductive Sleep where
  | timeout
  | grace
  deriving DecidableEq

/-- The child process of the watchdog. -/
def Watchdog.child : Watchdog → Option Sleep
  | sleep => some .timeout
  | grace => some .grace
  | absent | flag | term | kill | exited => none

/-- The signals that the script handles. -/
inductive Interrupt where
  | int
  | term

/-- The exit status of the handler. -/
def Interrupt.status : Interrupt → ℕ
  | int => 130
  | term => 143

/-- The script with its variables, where only the emptiness of the first three matters; QEMU, the
shell of the watchdog, and a `sleep` that has outlived that shell; whether QEMU has been sent a
signal while it ran, and SIGKILL, and the watchdog SIGTERM; whether the file `$timeout_flag` exists;
and whether the timeout has passed. -/
structure State where
  pc : Pc
  qemuPid : Bool
  watchdogPid : Bool
  timeoutFlag : Bool
  rc : ℕ
  timedOut : Bool
  exitStatus : ℕ
  qemu : Qemu
  watchdog : Watchdog
  orphan : Option Sleep
  signalled : Bool
  killed : Bool
  dismissed : Bool
  flagFile : Bool
  expired : Bool

/-- The events: the next command of the script, which `mktemp` may fail; the next command of the
watchdog, and its end by a signal, before or after it has started the `sleep` that it is at; the
end of a `sleep` without its watchdog; the end of QEMU; a signal to the script. -/
inductive Event where
  | script
  | mktempFails
  | watchdog
  | watchdogDies (started : Bool)
  | sleepEnds
  | qemuExits (status : ℕ)
  | signal (interrupt : Interrupt)

/-- The watchdog runs. -/
def Watchdog.alive : Watchdog → Bool
  | absent | exited => false
  | _ => true

/-- `kill "$qemu_pid"`, or with `-9`. -/
def State.killQemu (s : State) (nine : Bool) : State :=
  if s.qemu = .running then { s with signalled := true, killed := s.killed || nine } else s

/-- The next command of the script; `none` while it waits and after its end. The traps run
`cleanup` with the exit status already set. The message of `.verdict` contains the output of
`"$QEMU" --version`, which is assumed to return. -/
def script (args : List (List Char)) (s : State) : Option State :=
  match s.pc with
  | .mktemp => some { s with timeoutFlag := true, flagFile := true, pc := .removeStale }
  | .removeStale => some { s with flagFile := false, pc := .startQemu }
  | .startQemu => some { s with qemu := .running, pc := .noteQemu }
  | .noteQemu => some { s with qemuPid := true, pc := .startWatchdog }
  | .startWatchdog => some { s with watchdog := .sleep, pc := .noteWatchdog }
  | .noteWatchdog => some { s with watchdogPid := true, pc := .waitQemu }
  | .waitQemu =>
      match s.qemu with
      | .exited status => some { s with rc := status, pc := .forgetQemu }
      | _ => none
  | .forgetQemu => some { s with qemuPid := false, pc := .killWatchdog }
  | .killWatchdog => some { s with dismissed := true, pc := .waitWatchdog }
  | .waitWatchdog => if s.watchdog = .exited then some { s with pc := .forgetWatchdog } else none
  | .forgetWatchdog => some { s with watchdogPid := false, pc := .testFlag }
  | .testFlag => some { s with timedOut := s.flagFile, pc := .removeFlag }
  | .removeFlag => some { s with flagFile := false, pc := .forgetFlag }
  | .forgetFlag => some { s with timeoutFlag := false, pc := .verdict }
  | .verdict =>
      some { s with
        exitStatus := if s.timedOut then (if semihosting args then 1 else 0) else s.rc
        pc := .cleanup }
  | .cleanup =>
      some { s with pc := if s.watchdogPid then .cleanupKillWatchdog else .cleanupTestQemu }
  | .cleanupKillWatchdog => some { s with dismissed := true, pc := .cleanupWaitWatchdog }
  | .cleanupWaitWatchdog =>
      if s.watchdog = .exited then some { s with pc := .cleanupForgetWatchdog } else none
  | .cleanupForgetWatchdog => some { s with watchdogPid := false, pc := .cleanupTestQemu }
  | .cleanupTestQemu =>
      some { s with pc := if s.qemuPid then .cleanupTermQemu else .cleanupTestFlag }
  | .cleanupTermQemu => some { s.killQemu false with pc := .cleanupSleep }
  | .cleanupSleep => some { s with pc := .cleanupKillQemu }
  | .cleanupKillQemu => some { s.killQemu true with pc := .cleanupForgetQemu }
  | .cleanupForgetQemu => some { s with qemuPid := false, pc := .cleanupTestFlag }
  | .cleanupTestFlag =>
      some { s with pc := if s.timeoutFlag then .cleanupRemoveFlag else .done }
  | .cleanupRemoveFlag => some { s with flagFile := false, pc := .done }
  | .done => none

/-- The next command of the watchdog. -/
def watchdog (s : State) : Option State :=
  match s.watchdog with
  | .sleep => some { s with watchdog := .flag, expired := true }
  | .flag => some { s with watchdog := .term, flagFile := true }
  | .term => some { s.killQemu false with watchdog := .grace }
  | .grace => some { s with watchdog := .kill }
  | .kill => some { s.killQemu true with watchdog := .exited }
  | .absent | .exited => none

/-- A `sleep` without its watchdog ends. -/
def sleepEnds (s : State) : Option State :=
  s.orphan.map fun child ↦
    { s with orphan := none, expired := s.expired || decide (child = .timeout) }

/-- One event. -/
def next (args : List (List Char)) (s : State) : Event → Option State
  | .script => script args s
  | .mktempFails =>
      if s.pc = .mktemp then some { s with exitStatus := 1, pc := .cleanup } else none
  | .watchdog => watchdog s
  | .watchdogDies started =>
      if s.dismissed = true ∧ s.watchdog.alive = true then
        some { s with
          watchdog := .exited
          orphan := if started then s.watchdog.child else none }
      else none
  | .sleepEnds => sleepEnds s
  | .qemuExits status =>
      if s.qemu = .running then some { s with qemu := .exited status } else none
  | .signal interrupt =>
      if s.pc = .done then none
      else some { s with exitStatus := interrupt.status, pc := .cleanup }

/-- The script has set its traps. -/
def start : State where
  pc := .mktemp
  qemuPid := false
  watchdogPid := false
  timeoutFlag := false
  rc := 0
  timedOut := false
  exitStatus := 0
  qemu := .absent
  watchdog := .absent
  orphan := none
  signalled := false
  killed := false
  dismissed := false
  flagFile := false
  expired := false

/-! ## The exit status -/

/-- No signal interrupts the script, and `mktemp` succeeds. -/
def Undisturbed (_ : State) : Event → Prop
  | .signal _ | .mktempFails => False
  | .script | .watchdog | .watchdogDies _ | .sleepEnds | .qemuExits _ => True

instance (s : State) : DecidablePred (Undisturbed s)
  | .signal _ | .mktempFails => isFalse id
  | .script | .watchdog | .watchdogDies _ | .sleepEnds | .qemuExits _ => isTrue trivial

/-- The watchdog has left the file. -/
def Watchdog.flagged : Watchdog → Bool
  | term | grace | kill => true
  | absent | sleep | flag | exited => false

/-- The watchdog has not been started. -/
structure Unarmed (s : State) : Prop where
  watchdog : s.watchdog = .absent
  signalled : s.signalled = false

/-- The file is there before QEMU is sent a signal, and not before the timeout. -/
structure Armed (s : State) : Prop where
  signalled : s.signalled = true → s.flagFile = true
  flagged : s.watchdog.flagged = true → s.flagFile = true
  flag : s.watchdog = .flag → s.expired = true
  expired : s.flagFile = true → s.expired = true

/-- QEMU has exited and has been waited for. -/
structure Over (s : State) : Prop extends Armed s where
  qemu : s.qemu = .exited s.rc

/-- The script has looked for the file, after the end of the watchdog. -/
structure Decided (s : State) : Prop where
  signalled : s.signalled = true → s.timedOut = true
  expired : s.timedOut = true → s.expired = true
  qemu : s.qemu = .exited s.rc
  watchdog : s.watchdog = .exited
  qemuPid : s.qemuPid = false
  watchdogPid : s.watchdogPid = false

/-- The exit status without a signal. -/
def State.verdict (args : List (List Char)) (s : State) : ℕ :=
  if s.timedOut then (if semihosting args then 1 else 0) else s.rc

/-- What an undisturbed script knows at each of its commands. -/
def Told (args : List (List Char)) (s : State) : Prop :=
  match s.pc with
  | .mktemp | .removeStale => Unarmed s
  | .startQemu | .noteQemu | .startWatchdog => Unarmed s ∧ s.flagFile = false
  | .noteWatchdog | .waitQemu => Armed s
  | .forgetQemu => Over s
  | .killWatchdog | .waitWatchdog => Over s ∧ s.qemuPid = false
  | .forgetWatchdog => Over s ∧ s.qemuPid = false ∧ s.watchdog = .exited
  | .testFlag => Over s ∧ s.qemuPid = false ∧ s.watchdog = .exited ∧ s.watchdogPid = false
  | .removeFlag | .forgetFlag | .verdict => Decided s
  | .cleanup | .cleanupTestQemu | .cleanupTestFlag | .cleanupRemoveFlag | .done =>
      Decided s ∧ s.exitStatus = s.verdict args
  | .cleanupKillWatchdog | .cleanupWaitWatchdog | .cleanupForgetWatchdog | .cleanupTermQemu
  | .cleanupSleep | .cleanupKillQemu | .cleanupForgetQemu => False

variable {args : List (List Char)} {s s' : State}

/-- The next command of the script. -/
theorem Told.script (h : Told args s) (hstep : script args s = some s') : Told args s' := by
  unfold Told at h
  unfold QemuRun.script at hstep
  cases hpc : s.pc <;> simp only [hpc] at h hstep
  case mktemp =>
    cases hstep
    exact ⟨h.watchdog, h.signalled⟩
  case removeStale =>
    cases hstep
    exact ⟨⟨h.watchdog, h.signalled⟩, rfl⟩
  case startQemu | noteQemu =>
    cases hstep
    exact ⟨⟨h.1.watchdog, h.1.signalled⟩, h.2⟩
  -- nothing has been signalled, and the file is not there
  case startWatchdog =>
    cases hstep
    obtain ⟨⟨-, hsignalled⟩, hflag⟩ := h
    refine ⟨fun hsent ↦ ?_, nofun, nofun, fun hfile ↦ ?_⟩
    · exact absurd (hsent.symm.trans hsignalled) (by decide)
    · exact absurd (hfile.symm.trans hflag) (by decide)
  case noteWatchdog =>
    cases hstep
    exact ⟨h.signalled, h.flagged, h.flag, h.expired⟩
  case waitQemu =>
    cases hqemu : s.qemu <;> simp only [hqemu] at hstep <;> cases hstep
    exact ⟨⟨h.signalled, h.flagged, h.flag, h.expired⟩, rfl⟩
  case forgetQemu =>
    cases hstep
    exact ⟨⟨⟨h.signalled, h.flagged, h.flag, h.expired⟩, h.qemu⟩, rfl⟩
  case killWatchdog =>
    cases hstep
    exact ⟨⟨⟨h.1.signalled, h.1.flagged, h.1.flag, h.1.expired⟩, h.1.qemu⟩, h.2⟩
  case waitWatchdog =>
    split_ifs at hstep with hexited
    cases hstep
    exact ⟨⟨⟨h.1.signalled, h.1.flagged, h.1.flag, h.1.expired⟩, h.1.qemu⟩, h.2, hexited⟩
  case forgetWatchdog =>
    cases hstep
    obtain ⟨hover, hpid, hexited⟩ := h
    exact ⟨⟨⟨hover.signalled, hover.flagged, hover.flag, hover.expired⟩, hover.qemu⟩, hpid,
      hexited, rfl⟩
  -- the watchdog has exited, so the file tells the truth
  case testFlag =>
    cases hstep
    obtain ⟨hover, hpid, hexited, hwatchdogPid⟩ := h
    exact ⟨hover.signalled, hover.expired, hover.qemu, hexited, hpid, hwatchdogPid⟩
  case removeFlag | forgetFlag =>
    cases hstep
    exact ⟨h.signalled, h.expired, h.qemu, h.watchdog, h.qemuPid, h.watchdogPid⟩
  case verdict =>
    cases hstep
    exact ⟨⟨h.signalled, h.expired, h.qemu, h.watchdog, h.qemuPid, h.watchdogPid⟩, rfl⟩
  case cleanup =>
    rw [h.1.watchdogPid] at hstep
    cases hstep
    obtain ⟨h, hstatus⟩ := h
    exact ⟨⟨h.signalled, h.expired, h.qemu, h.watchdog, h.qemuPid, rfl⟩, hstatus⟩
  case cleanupTestQemu =>
    rw [h.1.qemuPid] at hstep
    cases hstep
    obtain ⟨h, hstatus⟩ := h
    exact ⟨⟨h.signalled, h.expired, h.qemu, h.watchdog, rfl, h.watchdogPid⟩, hstatus⟩
  case cleanupTestFlag =>
    cases hstep
    obtain ⟨h, hstatus⟩ := h
    cases s.timeoutFlag <;>
      exact ⟨⟨h.signalled, h.expired, h.qemu, h.watchdog, h.qemuPid, h.watchdogPid⟩, hstatus⟩
  case cleanupRemoveFlag =>
    cases hstep
    obtain ⟨h, hstatus⟩ := h
    exact ⟨⟨h.signalled, h.expired, h.qemu, h.watchdog, h.qemuPid, h.watchdogPid⟩, hstatus⟩
  case done => cases hstep

/-- A signal to QEMU changes nothing but its record. -/
theorem killQemu_eq (s : State) (nine : Bool) :
    s.killQemu nine = { s with
      signalled := s.signalled || decide (s.qemu = .running)
      killed := s.killed || decide (s.qemu = .running) && nine } := by
  unfold State.killQemu
  by_cases hrunning : s.qemu = .running
  · rw [if_pos hrunning, decide_eq_true hrunning, Bool.or_true, Bool.true_and]
  · rw [if_neg hrunning, decide_eq_false hrunning, Bool.or_false, Bool.false_and, Bool.or_false]

/-- The next command of the watchdog: the file first, then the signals. -/
theorem Armed.watchdog (h : Armed s) (hstep : watchdog s = some s') : Armed s' := by
  unfold QemuRun.watchdog at hstep
  have hflagged := h.flagged
  cases hwatchdog : s.watchdog <;> simp only [hwatchdog] at hstep hflagged
  case sleep =>
    cases hstep
    exact ⟨h.signalled, nofun, fun _ ↦ rfl, fun _ ↦ rfl⟩
  case flag =>
    cases hstep
    exact ⟨fun _ ↦ rfl, fun _ ↦ rfl, nofun, fun _ ↦ h.flag hwatchdog⟩
  case term | kill =>
    have hfile : s.flagFile = true := hflagged rfl
    rw [killQemu_eq] at hstep
    cases hstep
    exact ⟨fun _ ↦ hfile, fun _ ↦ hfile, nofun, h.expired⟩
  case grace =>
    cases hstep
    exact ⟨h.signalled, fun _ ↦ hflagged rfl, nofun, h.expired⟩
  case absent | exited => cases hstep

/-- The watchdog leaves the script and QEMU's process alone, and runs only if it has been started
and has not exited. -/
theorem watchdog_keeps (hstep : watchdog s = some s') :
    s.watchdog.alive = true ∧ s'.pc = s.pc ∧ s'.qemu = s.qemu ∧ s'.rc = s.rc ∧
      s'.qemuPid = s.qemuPid ∧ s'.watchdogPid = s.watchdogPid ∧ s'.timeoutFlag = s.timeoutFlag ∧
      s'.dismissed = s.dismissed ∧ (s.killed = true → s'.killed = true) := by
  unfold QemuRun.watchdog at hstep
  cases hwatchdog : s.watchdog <;> simp only [hwatchdog, killQemu_eq] at hstep <;> cases hstep
  case sleep | flag | grace => exact ⟨rfl, rfl, rfl, rfl, rfl, rfl, rfl, rfl, id⟩
  case term | kill =>
    exact ⟨rfl, rfl, rfl, rfl, rfl, rfl, rfl, rfl, fun hkilled ↦ by simp [hkilled]⟩

/-- What changes while the watchdog runs leaves the script with what it knows. -/
theorem Told.of_alive (h : Told args s) (halive : s.watchdog.alive = true)
    (harmed : Armed s → Armed s') (hpc : s'.pc = s.pc) (hqemu : s'.qemu = s.qemu)
    (hrc : s'.rc = s.rc) (hpid : s'.qemuPid = s.qemuPid) : Told args s' := by
  unfold Told at h ⊢
  rw [hpc]
  cases hp : s.pc <;> simp only [hp] at h ⊢
  case noteWatchdog | waitQemu => exact harmed h
  case forgetQemu => exact ⟨harmed h.toArmed, by rw [hqemu, hrc, h.qemu]⟩
  case killWatchdog | waitWatchdog =>
    exact ⟨⟨harmed h.1.toArmed, by rw [hqemu, hrc, h.1.qemu]⟩, hpid.trans h.2⟩
  -- the watchdog has not been started
  case mktemp | removeStale =>
    rw [h.watchdog] at halive
    cases halive
  case startQemu | noteQemu | startWatchdog =>
    rw [h.1.watchdog] at halive
    cases halive
  -- the watchdog has exited
  case forgetWatchdog =>
    rw [h.2.2] at halive
    cases halive
  case testFlag =>
    rw [h.2.2.1] at halive
    cases halive
  case removeFlag | forgetFlag | verdict =>
    rw [h.watchdog] at halive
    cases halive
  case cleanup | cleanupTestQemu | cleanupTestFlag | cleanupRemoveFlag | done =>
    rw [h.1.watchdog] at halive
    cases halive

/-- The end of QEMU, for which the script has not waited before. -/
theorem Told.exits (h : Told args s) (hrunning : s.qemu = .running) (status : ℕ) :
    Told args { s with qemu := .exited status } := by
  unfold Told at h ⊢
  have hnot {rc : ℕ} : s.qemu ≠ .exited rc := by
    rw [hrunning]
    nofun
  cases hp : s.pc <;> simp only [hp] at h ⊢
  case mktemp | removeStale => exact ⟨h.watchdog, h.signalled⟩
  case startQemu | noteQemu | startWatchdog => exact ⟨⟨h.1.watchdog, h.1.signalled⟩, h.2⟩
  case noteWatchdog | waitQemu => exact ⟨h.signalled, h.flagged, h.flag, h.expired⟩
  case forgetQemu => exact absurd h.qemu hnot
  case killWatchdog | waitWatchdog | forgetWatchdog | testFlag => exact absurd h.1.qemu hnot
  case removeFlag | forgetFlag | verdict => exact absurd h.qemu hnot
  case cleanup | cleanupTestQemu | cleanupTestFlag | cleanupRemoveFlag | done =>
    exact absurd h.1.qemu hnot

/-- The end of a `sleep` without its watchdog concerns nobody, and the timeout stays passed. -/
theorem sleep_ends_eq (hends : sleepEnds s = some s') :
    ∃ expired, s' = { s with orphan := none, expired := expired } ∧
      (s.expired = true → expired = true) := by
  unfold sleepEnds at hends
  obtain ⟨child, -, rfl⟩ := Option.map_eq_some_iff.mp hends
  exact ⟨_, rfl, fun hexpired ↦ by rw [hexpired, Bool.true_or]⟩

/-- The file and the signals are not concerned either. -/
theorem Armed.sleepEnds (h : Armed s) (hends : sleepEnds s = some s') : Armed s' := by
  obtain ⟨expired, rfl, hlater⟩ := sleep_ends_eq hends
  exact ⟨h.signalled, h.flagged, fun hflag ↦ hlater (h.flag hflag),
    fun hfile ↦ hlater (h.expired hfile)⟩

/-- What the script has found stays true. -/
theorem Decided.sleepEnds (h : Decided s) (hends : sleepEnds s = some s') : Decided s' := by
  obtain ⟨expired, rfl, hlater⟩ := sleep_ends_eq hends
  exact ⟨h.signalled, fun hlate ↦ hlater (h.expired hlate), h.qemu, h.watchdog, h.qemuPid,
    h.watchdogPid⟩

/-- The end of a `sleep` without its watchdog. -/
theorem Told.sleepEnds (h : Told args s) (hends : sleepEnds s = some s') : Told args s' := by
  obtain ⟨hpc, hsignalled, hqemu, hrc, hwatchdog, hpid, hwatchdogPid, hfile, hstatus⟩ :
      s'.pc = s.pc ∧ s'.signalled = s.signalled ∧ s'.qemu = s.qemu ∧ s'.rc = s.rc ∧
        s'.watchdog = s.watchdog ∧ s'.qemuPid = s.qemuPid ∧ s'.watchdogPid = s.watchdogPid ∧
        s'.flagFile = s.flagFile ∧
        (s.exitStatus = s.verdict args → s'.exitStatus = s'.verdict args) := by
    obtain ⟨expired, rfl, -⟩ := sleep_ends_eq hends
    exact ⟨rfl, rfl, rfl, rfl, rfl, rfl, rfl, rfl, id⟩
  have hover (h : Over s) : Over s' :=
    ⟨h.toArmed.sleepEnds hends, by rw [hqemu, hrc, h.qemu]⟩
  have hunarmed (h : Unarmed s) : Unarmed s' :=
    ⟨hwatchdog.trans h.watchdog, hsignalled.trans h.signalled⟩
  unfold Told at h ⊢
  rw [hpc]
  cases hp : s.pc <;> simp only [hp] at h ⊢
  case mktemp | removeStale => exact hunarmed h
  case startQemu | noteQemu | startWatchdog => exact ⟨hunarmed h.1, hfile.trans h.2⟩
  case noteWatchdog | waitQemu => exact h.sleepEnds hends
  case forgetQemu => exact hover h
  case killWatchdog | waitWatchdog => exact ⟨hover h.1, hpid.trans h.2⟩
  case forgetWatchdog => exact ⟨hover h.1, hpid.trans h.2.1, hwatchdog.trans h.2.2⟩
  case testFlag =>
    exact ⟨hover h.1, hpid.trans h.2.1, hwatchdog.trans h.2.2.1, hwatchdogPid.trans h.2.2.2⟩
  case removeFlag | forgetFlag | verdict => exact h.sleepEnds hends
  case cleanup | cleanupTestQemu | cleanupTestFlag | cleanupRemoveFlag | done =>
    exact ⟨h.1.sleepEnds hends, hstatus h.2⟩

/-- Any event but a signal. -/
theorem Told.next (h : Told args s) {event : Event} (hallowed : Undisturbed s event)
    (hnext : next args s event = some s') : Told args s' := by
  cases event with
  | script => exact h.script hnext
  | watchdog =>
      obtain ⟨halive, hpc, hqemu, hrc, hpid, -⟩ := watchdog_keeps hnext
      exact h.of_alive halive (fun harmed ↦ harmed.watchdog hnext) hpc hqemu hrc hpid
  | watchdogDies started =>
      simp only [QemuRun.next, Option.ite_none_right_eq_some, Option.some.injEq] at hnext
      obtain ⟨⟨-, halive⟩, rfl⟩ := hnext
      exact h.of_alive halive (fun harmed ↦ ⟨harmed.signalled, nofun, nofun, harmed.expired⟩)
        rfl rfl rfl rfl
  | sleepEnds => exact h.sleepEnds hnext
  | qemuExits status =>
      simp only [QemuRun.next, Option.ite_none_right_eq_some, Option.some.injEq] at hnext
      obtain ⟨hrunning, rfl⟩ := hnext
      exact h.exits hrunning status
  | mktempFails | signal => exact hallowed.elim

/-- What the exit status means, in every run without a signal to the script. If the script has not
found the file, it is that of QEMU, to which nobody has sent a signal. Otherwise the timeout has
passed, and the status is a failure exactly with semihosting. So with semihosting the script
succeeds only if QEMU has exited by itself with status 0. -/
theorem exit_status_tells (hreach : ReachableWhere (next args) Undisturbed start s)
    (hdone : s.pc = .done) :
    (s.signalled = true → s.timedOut = true) ∧
    (s.timedOut = false → s.qemu = .exited s.exitStatus) ∧
    (s.timedOut = true → s.expired = true ∧ s.exitStatus = if semihosting args then 1 else 0) ∧
    (semihosting args = true → s.exitStatus = 0 →
      s.qemu = .exited 0 ∧ s.signalled = false ∧ s.timedOut = false) := by
  have h : Told args s := hreach.invariant (Told args) ⟨rfl, rfl⟩
    fun _ _ _ h hallowed hnext ↦ h.next hallowed hnext
  unfold Told at h
  simp only [hdone] at h
  obtain ⟨h, hstatus⟩ := h
  unfold State.verdict at hstatus
  refine ⟨h.signalled, fun htimely ↦ ?_, fun hlate ↦ ⟨h.expired hlate, ?_⟩,
    fun hsemihosting hzero ↦ ?_⟩
  · rw [hstatus, htimely, h.qemu]
    rfl
  · rw [hstatus, hlate]
    rfl
  · have htimely : s.timedOut = false := by
      by_contra hlate
      rw [hzero, Bool.eq_true_of_not_eq_false hlate, hsemihosting] at hstatus
      cases hstatus
    have hunsignalled : s.signalled = false := by
      by_contra hsent
      have hlate := h.signalled (Bool.eq_true_of_not_eq_false hsent)
      exact absurd (hlate.symm.trans htimely) (by decide)
    refine ⟨?_, hunsignalled, htimely⟩
    rw [hzero, htimely] at hstatus
    rw [h.qemu]
    exact congrArg Qemu.exited hstatus.symm

/-- The flags of the tests that end by themselves. -/
def semihostingArgs : List (List Char) :=
  ["-semihosting-config".toList, "enable=on,target=native".toList]

/-- QEMU exits with status 0 before the timeout. -/
def inTime : List Event :=
  List.replicate 6 .script ++ .qemuExits 0 :: List.replicate 3 .script ++
    .watchdogDies true :: List.replicate 9 .script

/-- The script succeeds, and so has QEMU. -/
theorem exit_status_tells_in_time :
    ∃ s, run (next semihostingArgs) inTime start = some s ∧ s.pc = .done ∧ s.exitStatus = 0 ∧
      s.qemu = .exited 0 ∧ s.signalled = false := by
  obtain ⟨s, hrun, hdone, hstatus⟩ : ∃ s,
      run (next semihostingArgs) inTime start = some s ∧ s.pc = .done ∧ s.exitStatus = 0 :=
    ⟨_, rfl, rfl, rfl⟩
  have hundisturbed : ∀ event ∈ inTime, Undisturbed start event := by decide
  have hreach : ReachableWhere (next semihostingArgs) Undisturbed start s :=
    reachable_where_of_run inTime (fun event hevent _ ↦ hundisturbed event hevent) hrun
  obtain ⟨-, -, -, hsuccess⟩ := exit_status_tells hreach hdone
  obtain ⟨hqemu, hsignalled, -⟩ := hsuccess (by decide) hstatus
  exact ⟨s, hrun, hdone, hstatus, hqemu, hsignalled⟩

/-! ## What the script leaves behind -/

/-- No signal arrives between the start of a process and the assignment of its id. -/
def Noted (s : State) : Event → Prop
  | .signal _ => s.pc ≠ .noteQemu ∧ s.pc ≠ .noteWatchdog
  | .script | .mktempFails | .watchdog | .watchdogDies _ | .sleepEnds | .qemuExits _ => True

instance (s : State) : DecidablePred (Noted s)
  | .signal _ => inferInstanceAs (Decidable (_ ∧ _))
  | .script | .mktempFails | .watchdog | .watchdogDies _ | .sleepEnds | .qemuExits _ =>
      isTrue trivial

/-- The commands behind which the script has no watchdog, no QEMU, and no file any more. -/
def Pc.withoutWatchdog : Pc → Bool
  | testFlag | removeFlag | forgetFlag | verdict | cleanupTestQemu | cleanupTermQemu | cleanupSleep
  | cleanupKillQemu | cleanupForgetQemu | cleanupTestFlag | cleanupRemoveFlag | done => true
  | _ => false

def Pc.withoutQemu : Pc → Bool
  | cleanupTestFlag | cleanupRemoveFlag | done => true
  | _ => false

def Pc.withoutFlag : Pc → Bool
  | forgetFlag | done => true
  | _ => false

/-- The commands between `mktemp` and the start of the watchdog. -/
def Pc.withFlag : Pc → Bool
  | removeStale | startQemu | noteQemu | startWatchdog => true
  | _ => false

/-- QEMU runs, and SIGKILL is not on its way. -/
def State.survives (s : State) : Bool := decide (s.qemu = .running) && !s.killed

/-- A watchdog that runs is the one that the variable names. -/
structure WatchdogNamed (s : State) : Prop where
  named : s.watchdog.alive = true → s.watchdogPid = true ∨ s.pc = .noteWatchdog
  waited : s.pc = .forgetWatchdog ∨ s.pc = .cleanupForgetWatchdog → s.watchdog.alive = false
  forgotten : s.pc.withoutWatchdog = true → s.watchdogPid = false

/-- QEMU is the process that the variable names, if it survives. -/
structure QemuNamed (s : State) : Prop where
  named : s.survives = true → s.qemuPid = true ∨ s.pc = .noteQemu
  ended : s.pc = .forgetQemu ∨ s.pc = .cleanupForgetQemu → s.survives = false
  forgotten : s.pc.withoutQemu = true → s.qemuPid = false

/-- The file is the one that the variable names, and no other can appear. -/
structure FileNamed (s : State) : Prop where
  named : s.flagFile = true ∨ s.watchdog.alive = true → s.timeoutFlag = true
  made : s.pc.withFlag = true → s.timeoutFlag = true
  removed : s.pc.withoutFlag = true → s.flagFile = false

/-- The variable still names the watchdog where nothing of it changes. -/
theorem WatchdogNamed.keep (h : WatchdogNamed s) (hwatchdog : s'.watchdog = s.watchdog)
    (hpid : s'.watchdogPid = s.watchdogPid) (hnote : s.pc ≠ .noteWatchdog)
    (hwait : ¬ (s'.pc = .forgetWatchdog ∨ s'.pc = .cleanupForgetWatchdog))
    (hpc : s'.pc.withoutWatchdog = true → s.pc.withoutWatchdog = true) : WatchdogNamed s' where
  named halive := by
    rw [hwatchdog] at halive
    exact .inl (hpid.trans ((h.named halive).resolve_right hnote))
  waited hforget := absurd hforget hwait
  forgotten hwithout := hpid.trans (h.forgotten (hpc hwithout))

/-- The next command of the script. -/
theorem WatchdogNamed.script (h : WatchdogNamed s) (hstep : script args s = some s') :
    WatchdogNamed s' := by
  unfold QemuRun.script at hstep
  cases hpc : s.pc <;> simp only [hpc, killQemu_eq] at hstep
  case startWatchdog =>
    cases hstep
    exact ⟨fun _ ↦ .inr rfl, nofun, nofun⟩
  case noteWatchdog =>
    cases hstep
    exact ⟨fun _ ↦ .inl rfl, nofun, nofun⟩
  case waitWatchdog | cleanupWaitWatchdog =>
    split_ifs at hstep with hexited
    cases hstep
    have hdead : s.watchdog.alive = false := by
      rw [hexited]
      rfl
    exact ⟨fun halive ↦ absurd (halive.symm.trans hdead) (by decide), fun _ ↦ hdead, nofun⟩
  case forgetWatchdog | cleanupForgetWatchdog =>
    cases hstep
    have hdead : s.watchdog.alive = false := h.waited (by simp [hpc])
    exact ⟨fun halive ↦ absurd (halive.symm.trans hdead) (by decide), nofun, fun _ ↦ rfl⟩
  case cleanup =>
    cases hstep
    cases hpid : s.watchdogPid with
    | true => exact h.keep rfl hpid.symm (by simp [hpc]) nofun nofun
    | false =>
        have hdead (halive : s.watchdog.alive = true) : False := by
          rcases h.named halive with hset | hnote
          · exact absurd (hset.symm.trans hpid) (by decide)
          · exact absurd (hpc.symm.trans hnote) (by decide)
        exact ⟨fun halive ↦ (hdead halive).elim, nofun, fun _ ↦ rfl⟩
  case waitQemu =>
    cases hqemu : s.qemu <;> simp only [hqemu] at hstep <;> cases hstep
    exact h.keep rfl rfl (by simp [hpc]) nofun nofun
  case mktemp | removeStale | startQemu | noteQemu | forgetQemu | killWatchdog | verdict |
      cleanupKillWatchdog =>
    cases hstep
    exact h.keep rfl rfl (by simp [hpc]) nofun nofun
  -- the script has no watchdog any more
  case testFlag | removeFlag | forgetFlag | cleanupTermQemu | cleanupSleep | cleanupKillQemu |
      cleanupForgetQemu | cleanupRemoveFlag =>
    cases hstep
    exact h.keep rfl rfl (by simp [hpc]) nofun fun _ ↦ by rw [hpc]; rfl
  case cleanupTestQemu =>
    cases hstep
    cases s.qemuPid <;> exact h.keep rfl rfl (by simp [hpc]) nofun fun _ ↦ by rw [hpc]; rfl
  case cleanupTestFlag =>
    cases hstep
    cases s.timeoutFlag <;> exact h.keep rfl rfl (by simp [hpc]) nofun fun _ ↦ by rw [hpc]; rfl
  case done => cases hstep

/-- A command that the script has after the end of the watchdog. -/
theorem WatchdogNamed.dead (h : WatchdogNamed s) (hpc : s.pc.withoutWatchdog = true) :
    s.watchdog.alive = false := by
  by_contra halive
  rcases h.named (Bool.eq_true_of_not_eq_false halive) with hset | hnote
  · exact absurd (hset.symm.trans (h.forgotten hpc)) (by decide)
  · rw [hnote] at hpc
    cases hpc

/-- Any event that does not interrupt the script before it has noted the watchdog. -/
theorem WatchdogNamed.next (h : WatchdogNamed s) {event : Event} (hallowed : Noted s event)
    (hnext : next args s event = some s') : WatchdogNamed s' := by
  cases event with
  | script => exact h.script hnext
  | mktempFails =>
      simp only [QemuRun.next, Option.ite_none_right_eq_some, Option.some.injEq] at hnext
      obtain ⟨hpc, rfl⟩ := hnext
      exact h.keep rfl rfl (by simp [hpc]) nofun nofun
  | watchdog =>
      obtain ⟨halive, hpc, -, -, -, hpid, -⟩ := watchdog_keeps hnext
      refine ⟨fun _ ↦ ?_, fun hforget ↦ ?_, fun hwithout ↦ ?_⟩
      · rw [hpid, hpc]
        exact h.named halive
      · rw [hpc] at hforget
        exact absurd (halive.symm.trans (h.waited hforget)) (by decide)
      · rw [hpc] at hwithout
        exact absurd (halive.symm.trans (h.dead hwithout)) (by decide)
  | watchdogDies started =>
      simp only [QemuRun.next, Option.ite_none_right_eq_some, Option.some.injEq] at hnext
      obtain ⟨-, rfl⟩ := hnext
      exact ⟨nofun, fun _ ↦ rfl, h.forgotten⟩
  | sleepEnds =>
      obtain ⟨expired, rfl, -⟩ := sleep_ends_eq hnext
      exact ⟨h.named, h.waited, h.forgotten⟩
  | qemuExits status =>
      simp only [QemuRun.next, Option.ite_none_right_eq_some, Option.some.injEq] at hnext
      obtain ⟨-, rfl⟩ := hnext
      exact ⟨h.named, h.waited, h.forgotten⟩
  | signal interrupt =>
      simp only [QemuRun.next, Option.ite_none_left_eq_some, Option.some.injEq] at hnext
      obtain ⟨-, rfl⟩ := hnext
      exact h.keep rfl rfl hallowed.2 nofun nofun

/-- The variable still names QEMU where nothing of it changes but its record. -/
theorem QemuNamed.keep (h : QemuNamed s) (hsurvives : s'.survives = true → s.survives = true)
    (hpid : s'.qemuPid = s.qemuPid) (hnote : s.pc ≠ .noteQemu)
    (hend : ¬ (s'.pc = .forgetQemu ∨ s'.pc = .cleanupForgetQemu))
    (hpc : s'.pc.withoutQemu = true → s.pc.withoutQemu = true) : QemuNamed s' where
  named hlives := .inl (hpid.trans ((h.named (hsurvives hlives)).resolve_right hnote))
  ended hforget := absurd hforget hend
  forgotten hwithout := hpid.trans (h.forgotten (hpc hwithout))

/-- A signal does not make QEMU survive. -/
theorem survives_of_kill {nine : Bool} (hlives : (s.killQemu nine).survives = true) :
    s.survives = true := by
  unfold State.survives at hlives ⊢
  rw [killQemu_eq, Bool.and_eq_true, Bool.not_eq_true', Bool.or_eq_false_iff] at hlives
  rw [Bool.and_eq_true, Bool.not_eq_true']
  exact ⟨hlives.1, hlives.2.1⟩

/-- SIGKILL makes it not survive. -/
theorem not_survives_of_nine : (s.killQemu true).survives = false := by
  unfold State.survives
  rw [killQemu_eq]
  cases decide (s.qemu = .running) <;> simp

/-- The next command of the script. -/
theorem QemuNamed.script (h : QemuNamed s) (hstep : script args s = some s') : QemuNamed s' := by
  unfold QemuRun.script at hstep
  cases hpc : s.pc <;> simp only [hpc] at hstep
  case startQemu =>
    cases hstep
    exact ⟨fun _ ↦ .inr rfl, nofun, nofun⟩
  case noteQemu =>
    cases hstep
    exact ⟨fun _ ↦ .inl rfl, nofun, nofun⟩
  case waitQemu =>
    cases hqemu : s.qemu <;> simp only [hqemu] at hstep <;> cases hstep
    exact ⟨nofun, fun _ ↦ rfl, nofun⟩
  case cleanupKillQemu =>
    cases hstep
    have hdead : (s.killQemu true).survives = false := not_survives_of_nine
    exact ⟨fun hlives ↦ absurd (hlives.symm.trans hdead) (by decide), fun _ ↦ hdead, nofun⟩
  case forgetQemu | cleanupForgetQemu =>
    cases hstep
    have hdead : s.survives = false := h.ended (by simp [hpc])
    exact ⟨fun hlives ↦ absurd (hlives.symm.trans hdead) (by decide), nofun, fun _ ↦ rfl⟩
  case cleanupTestQemu =>
    cases hstep
    cases hpid : s.qemuPid with
    | true => exact h.keep id hpid.symm (by simp [hpc]) nofun nofun
    | false =>
        have hdead (hlives : s.survives = true) : False := by
          rcases h.named hlives with hset | hnote
          · exact absurd (hset.symm.trans hpid) (by decide)
          · exact absurd (hpc.symm.trans hnote) (by decide)
        exact ⟨fun hlives ↦ (hdead hlives).elim, nofun, fun _ ↦ rfl⟩
  case cleanupTermQemu =>
    cases hstep
    have hpid : (s.killQemu false).qemuPid = s.qemuPid := by rw [killQemu_eq]
    exact h.keep (fun hlives ↦ survives_of_kill hlives) hpid (by simp [hpc]) nofun nofun
  case waitWatchdog | cleanupWaitWatchdog =>
    split_ifs at hstep
    cases hstep
    exact h.keep id rfl (by simp [hpc]) nofun nofun
  case mktemp | removeStale | startWatchdog | noteWatchdog | killWatchdog | forgetWatchdog |
      testFlag | removeFlag | forgetFlag | verdict | cleanupKillWatchdog |
      cleanupForgetWatchdog | cleanupSleep =>
    cases hstep
    exact h.keep id rfl (by simp [hpc]) nofun nofun
  case cleanup =>
    cases hstep
    cases s.watchdogPid <;> exact h.keep id rfl (by simp [hpc]) nofun nofun
  case cleanupTestFlag =>
    cases hstep
    cases s.timeoutFlag <;> exact h.keep id rfl (by simp [hpc]) nofun fun _ ↦ by rw [hpc]; rfl
  case cleanupRemoveFlag =>
    cases hstep
    exact h.keep id rfl (by simp [hpc]) nofun fun _ ↦ by rw [hpc]; rfl
  case done => cases hstep

/-- Any event that does not interrupt the script before it has noted QEMU. -/
theorem QemuNamed.next (h : QemuNamed s) {event : Event} (hallowed : Noted s event)
    (hnext : next args s event = some s') : QemuNamed s' := by
  cases event with
  | script => exact h.script hnext
  | mktempFails =>
      simp only [QemuRun.next, Option.ite_none_right_eq_some, Option.some.injEq] at hnext
      obtain ⟨hpc, rfl⟩ := hnext
      exact h.keep id rfl (by simp [hpc]) nofun nofun
  | watchdog =>
      obtain ⟨-, hpc, hqemu, -, hpid, -, -, -, hkilled⟩ := watchdog_keeps hnext
      have hsurvives (hlives : s'.survives = true) : s.survives = true := by
        unfold State.survives at hlives ⊢
        rw [hqemu, Bool.and_eq_true, Bool.not_eq_true'] at hlives
        rw [Bool.and_eq_true, Bool.not_eq_true']
        refine ⟨hlives.1, Bool.eq_false_iff.mpr fun hold ↦ ?_⟩
        exact absurd ((hkilled hold).symm.trans hlives.2) (by decide)
      refine ⟨fun hlives ↦ ?_, fun hforget ↦ ?_, fun hwithout ↦ ?_⟩
      · rw [hpid, hpc]
        exact h.named (hsurvives hlives)
      · rw [hpc] at hforget
        by_contra hlives
        have hold := hsurvives (Bool.eq_true_of_not_eq_false hlives)
        exact absurd (hold.symm.trans (h.ended hforget)) (by decide)
      · rw [hpc] at hwithout
        exact hpid.trans (h.forgotten hwithout)
  | watchdogDies started =>
      simp only [QemuRun.next, Option.ite_none_right_eq_some, Option.some.injEq] at hnext
      obtain ⟨-, rfl⟩ := hnext
      exact ⟨h.named, h.ended, h.forgotten⟩
  | sleepEnds =>
      obtain ⟨expired, rfl, -⟩ := sleep_ends_eq hnext
      exact ⟨h.named, h.ended, h.forgotten⟩
  | qemuExits status =>
      simp only [QemuRun.next, Option.ite_none_right_eq_some, Option.some.injEq] at hnext
      obtain ⟨-, rfl⟩ := hnext
      exact ⟨nofun, fun _ ↦ rfl, h.forgotten⟩
  | signal interrupt =>
      simp only [QemuRun.next, Option.ite_none_left_eq_some, Option.some.injEq] at hnext
      obtain ⟨-, rfl⟩ := hnext
      exact h.keep id rfl hallowed.1 nofun nofun

/-- The variable still names the file where nothing of it changes and no watchdog appears. -/
theorem FileNamed.keep (h : FileNamed s) (hfile : s'.flagFile = s.flagFile)
    (halive : s'.watchdog.alive = true → s.watchdog.alive = true)
    (hset : s'.timeoutFlag = s.timeoutFlag) (hmade : s'.pc.withFlag = true → s.pc.withFlag = true)
    (hpc : s'.pc.withoutFlag = true → s.pc.withoutFlag = true) : FileNamed s' where
  named hthere := by
    rw [hfile] at hthere
    exact hset.trans (h.named (hthere.imp_right halive))
  made hwith := hset.trans (h.made (hmade hwith))
  removed hwithout := hfile.trans (h.removed (hpc hwithout))

/-- The next command of the script. -/
theorem FileNamed.script (h : FileNamed s) (hwatchdog : WatchdogNamed s)
    (hstep : script args s = some s') : FileNamed s' := by
  unfold QemuRun.script at hstep
  cases hpc : s.pc <;> simp only [hpc, killQemu_eq] at hstep
  case mktemp =>
    cases hstep
    exact ⟨fun _ ↦ rfl, fun _ ↦ rfl, nofun⟩
  case removeStale =>
    cases hstep
    have hset : s.timeoutFlag = true := h.made (by rw [hpc]; rfl)
    exact ⟨fun _ ↦ hset, fun _ ↦ hset, nofun⟩
  case startQemu | noteQemu =>
    cases hstep
    exact h.keep rfl id rfl (fun _ ↦ by rw [hpc]; rfl) nofun
  -- the variable is set before the watchdog is started
  case startWatchdog =>
    cases hstep
    exact ⟨fun _ ↦ h.made (by rw [hpc]; rfl), nofun, nofun⟩
  case removeFlag =>
    cases hstep
    exact ⟨fun hthere ↦ h.named (.inr (hthere.resolve_left nofun)), nofun, fun _ ↦ rfl⟩
  -- there is no file, and no watchdog to make one
  case forgetFlag =>
    cases hstep
    have hfile : s.flagFile = false := h.removed (by rw [hpc]; rfl)
    have hdead : s.watchdog.alive = false := hwatchdog.dead (by rw [hpc]; rfl)
    refine ⟨fun hthere ↦ ?_, nofun, nofun⟩
    rcases hthere with hthere | halive
    · exact absurd (hthere.symm.trans hfile) (by decide)
    · exact absurd (halive.symm.trans hdead) (by decide)
  case cleanupTestFlag =>
    cases hstep
    cases hset : s.timeoutFlag with
    | true => exact h.keep rfl id hset.symm nofun nofun
    | false =>
        have hfile : s.flagFile = false := by
          by_contra hthere
          have hnamed := h.named (.inl (Bool.eq_true_of_not_eq_false hthere))
          exact absurd (hnamed.symm.trans hset) (by decide)
        exact ⟨fun hthere ↦ hset.symm.trans (h.named hthere), nofun, fun _ ↦ hfile⟩
  case cleanupRemoveFlag =>
    cases hstep
    exact ⟨fun hthere ↦ h.named (.inr (hthere.resolve_left nofun)), nofun, fun _ ↦ rfl⟩
  case waitQemu =>
    cases hqemu : s.qemu <;> simp only [hqemu] at hstep <;> cases hstep
    exact h.keep rfl id rfl nofun nofun
  case waitWatchdog | cleanupWaitWatchdog =>
    split_ifs at hstep
    cases hstep
    exact h.keep rfl id rfl nofun nofun
  case cleanup =>
    cases hstep
    cases s.watchdogPid <;> exact h.keep rfl id rfl nofun nofun
  case cleanupTestQemu =>
    cases hstep
    cases s.qemuPid <;> exact h.keep rfl id rfl nofun nofun
  case noteWatchdog | forgetQemu | killWatchdog | forgetWatchdog | testFlag | verdict |
      cleanupKillWatchdog | cleanupForgetWatchdog | cleanupTermQemu | cleanupSleep |
      cleanupKillQemu | cleanupForgetQemu =>
    cases hstep
    exact h.keep rfl id rfl nofun nofun
  case done => cases hstep

/-- Any event. -/
theorem FileNamed.next (h : FileNamed s) (hwatchdog : WatchdogNamed s) {event : Event}
    (hnext : next args s event = some s') : FileNamed s' := by
  cases event with
  | script => exact h.script hwatchdog hnext
  | mktempFails =>
      simp only [QemuRun.next, Option.ite_none_right_eq_some, Option.some.injEq] at hnext
      obtain ⟨-, rfl⟩ := hnext
      exact h.keep rfl id rfl nofun nofun
  | watchdog =>
      obtain ⟨halive, hpc, -, -, -, -, hset, -⟩ := watchdog_keeps hnext
      refine ⟨fun _ ↦ hset.trans (h.named (.inr halive)), fun hwith ↦ ?_, fun hwithout ↦ ?_⟩
      · rw [hpc] at hwith
        exact hset.trans (h.made hwith)
      · rw [hpc] at hwithout
        have hpc' : s.pc.withoutWatchdog = true := by
          cases hp : s.pc <;> rw [hp] at hwithout <;> first | rfl | cases hwithout
        exact absurd (halive.symm.trans (hwatchdog.dead hpc')) (by decide)
  | watchdogDies started =>
      simp only [QemuRun.next, Option.ite_none_right_eq_some, Option.some.injEq] at hnext
      obtain ⟨-, rfl⟩ := hnext
      exact h.keep rfl nofun rfl id id
  | sleepEnds =>
      obtain ⟨expired, rfl, -⟩ := sleep_ends_eq hnext
      exact h.keep rfl id rfl id id
  | qemuExits status =>
      simp only [QemuRun.next, Option.ite_none_right_eq_some, Option.some.injEq] at hnext
      obtain ⟨-, rfl⟩ := hnext
      exact h.keep rfl id rfl id id
  | signal interrupt =>
      simp only [QemuRun.next, Option.ite_none_left_eq_some, Option.some.injEq] at hnext
      obtain ⟨-, rfl⟩ := hnext
      exact h.keep rfl id rfl nofun nofun

/-- The commands up to the start of the watchdog. -/
def Pc.beforeWatchdog : Pc → Bool
  | mktemp | removeStale | startQemu | noteQemu | startWatchdog => true
  | _ => false

/-- A `sleep` without its watchdog is one whose watchdog has been dismissed; if it is the one for
the timeout, the timeout has not passed. -/
structure Orphaned (s : State) : Prop where
  fresh : s.pc.beforeWatchdog = true → s.watchdog = .absent
  exited : s.orphan ≠ none → s.watchdog = .exited ∧ s.dismissed = true
  waiting : s.watchdog = .absent ∨ s.watchdog = .sleep ∨ s.orphan = some .timeout →
    s.expired = false

/-- Nothing changes where neither the watchdog nor its `sleep` takes part. -/
theorem Orphaned.keep (h : Orphaned s) (hwatchdog : s'.watchdog = s.watchdog)
    (horphan : s'.orphan = s.orphan) (hdismissed : s.dismissed = true → s'.dismissed = true)
    (hexpired : s'.expired = s.expired)
    (hpc : s'.pc.beforeWatchdog = true → s.pc.beforeWatchdog = true) : Orphaned s' where
  fresh hbefore := hwatchdog.trans (h.fresh (hpc hbefore))
  exited hthere := by
    rw [horphan] at hthere
    exact ⟨hwatchdog.trans (h.exited hthere).1, hdismissed (h.exited hthere).2⟩
  waiting hwaits := by
    rw [hwatchdog, horphan] at hwaits
    exact hexpired.trans (h.waiting hwaits)

/-- The next command of the script. -/
theorem Orphaned.script (h : Orphaned s) (hstep : script args s = some s') : Orphaned s' := by
  unfold QemuRun.script at hstep
  cases hpc : s.pc <;> simp only [hpc, killQemu_eq] at hstep
  -- a `sleep` without its watchdog would have to be that of an earlier one
  case startWatchdog =>
    cases hstep
    have habsent : s.watchdog = .absent := h.fresh (by rw [hpc]; rfl)
    refine ⟨nofun, fun hthere ↦ ?_, fun _ ↦ h.waiting (.inl habsent)⟩
    have hexited := (h.exited hthere).1
    rw [habsent] at hexited
    cases hexited
  case mktemp | removeStale | startQemu | noteQemu =>
    cases hstep
    exact h.keep rfl rfl id rfl fun _ ↦ by rw [hpc]; rfl
  case waitQemu =>
    cases hqemu : s.qemu <;> simp only [hqemu] at hstep <;> cases hstep
    exact h.keep rfl rfl id rfl nofun
  case killWatchdog | cleanupKillWatchdog =>
    cases hstep
    exact h.keep rfl rfl (fun _ ↦ rfl) rfl nofun
  case waitWatchdog | cleanupWaitWatchdog =>
    split_ifs at hstep
    cases hstep
    exact h.keep rfl rfl id rfl nofun
  case cleanup =>
    cases hstep
    cases s.watchdogPid <;> exact h.keep rfl rfl id rfl nofun
  case cleanupTestQemu =>
    cases hstep
    cases s.qemuPid <;> exact h.keep rfl rfl id rfl nofun
  case cleanupTestFlag =>
    cases hstep
    cases s.timeoutFlag <;> exact h.keep rfl rfl id rfl nofun
  case done => cases hstep
  all_goals
    cases hstep
    exact h.keep rfl rfl id rfl nofun

/-- The watchdog passes its `sleep` with the timeout. -/
theorem Orphaned.watchdog (h : Orphaned s) (hstep : watchdog s = some s') : Orphaned s' := by
  obtain ⟨halive, hpc, -⟩ := watchdog_keeps hstep
  have hnone : s.orphan = none := by
    by_contra hthere
    rw [(h.exited hthere).1] at halive
    cases halive
  have hfresh (hbefore : s'.pc.beforeWatchdog = true) : False := by
    rw [hpc] at hbefore
    rw [h.fresh hbefore] at halive
    cases halive
  have hkept : s'.orphan = none ∧ s'.watchdog ≠ .absent ∧ s'.watchdog ≠ .sleep := by
    unfold QemuRun.watchdog at hstep
    cases hwatchdog : s.watchdog <;> simp only [hwatchdog, killQemu_eq] at hstep <;> cases hstep <;>
      exact ⟨hnone, nofun, nofun⟩
  obtain ⟨hgone, hstarted, hslept⟩ := hkept
  refine ⟨fun hbefore ↦ (hfresh hbefore).elim, fun hthere ↦ absurd hgone hthere, ?_⟩
  rintro (habsent | hsleep | horphan)
  · exact absurd habsent hstarted
  · exact absurd hsleep hslept
  · rw [hgone] at horphan
    cases horphan

/-- A signal to the watchdog leaves the `sleep` that its shell waits for. -/
theorem Orphaned.dies (h : Orphaned s) {started : Bool} (hdismissed : s.dismissed = true)
    (halive : s.watchdog.alive = true) :
    Orphaned { s with
      watchdog := .exited, orphan := if started then s.watchdog.child else none } := by
  refine ⟨fun hbefore ↦ ?_, fun _ ↦ ⟨rfl, hdismissed⟩, ?_⟩
  · rw [h.fresh hbefore] at halive
    cases halive
  · rintro (habsent | hsleep | horphan)
    · cases habsent
    · cases hsleep
    · rw [Option.ite_none_right_eq_some] at horphan
      have hchild := horphan.2
      refine h.waiting (.inr (.inl ?_))
      cases hwatchdog : s.watchdog <;> rw [hwatchdog] at hchild <;> first
        | rfl
        | cases hchild

/-- Any event. -/
theorem Orphaned.next (h : Orphaned s) {event : Event} (hnext : next args s event = some s') :
    Orphaned s' := by
  cases event with
  | script => exact h.script hnext
  | watchdog => exact h.watchdog hnext
  | watchdogDies started =>
      simp only [QemuRun.next, Option.ite_none_right_eq_some, Option.some.injEq] at hnext
      obtain ⟨⟨hdismissed, halive⟩, rfl⟩ := hnext
      exact h.dies hdismissed halive
  | sleepEnds =>
      have hnext : sleepEnds s = some s' := hnext
      unfold sleepEnds at hnext
      obtain ⟨child, hthere, rfl⟩ := Option.map_eq_some_iff.mp hnext
      have hexited : s.watchdog = .exited := (h.exited (by rw [hthere]; nofun)).1
      refine ⟨h.fresh, nofun, ?_⟩
      rintro (habsent | hsleep | horphan)
      · exact absurd (hexited.symm.trans habsent) (by decide)
      · exact absurd (hexited.symm.trans hsleep) (by decide)
      · cases horphan
  | mktempFails =>
      simp only [QemuRun.next, Option.ite_none_right_eq_some, Option.some.injEq] at hnext
      obtain ⟨-, rfl⟩ := hnext
      exact h.keep rfl rfl id rfl nofun
  | qemuExits status =>
      simp only [QemuRun.next, Option.ite_none_right_eq_some, Option.some.injEq] at hnext
      obtain ⟨-, rfl⟩ := hnext
      exact h.keep rfl rfl id rfl id
  | signal interrupt =>
      simp only [QemuRun.next, Option.ite_none_left_eq_some, Option.some.injEq] at hnext
      obtain ⟨-, rfl⟩ := hnext
      exact h.keep rfl rfl id rfl nofun

/-- A `sleep` without its watchdog is accounted for in every state. -/
theorem orphaned_of_reachable {allowed : State → Event → Prop}
    (hreach : ReachableWhere (next args) allowed start s) : Orphaned s :=
  hreach.invariant Orphaned ⟨fun _ ↦ rfl, fun hthere ↦ absurd rfl hthere, fun _ ↦ rfl⟩
    fun _ _ _ h _ hnext ↦ h.next hnext

/-- When a script is done which no signal has interrupted at the commands that note a process just
started, the shell of the watchdog has exited or has never been started, QEMU as well or it has been
sent SIGKILL, and the file does not exist. At most one `sleep` is left, that of a watchdog which the
script has dismissed; if it is the one for the timeout, the timeout has not passed. -/
theorem only_sleep_left (hreach : ReachableWhere (next args) Noted start s) (hdone : s.pc = .done) :
    s.watchdog.alive = false ∧ s.survives = false ∧ s.flagFile = false ∧
      ∀ child, s.orphan = some child →
        s.dismissed = true ∧ (child = .timeout → s.expired = false) := by
  have h := hreach.invariant (fun s ↦ WatchdogNamed s ∧ QemuNamed s ∧ FileNamed s)
    ⟨⟨nofun, nofun, nofun⟩, ⟨nofun, fun _ ↦ rfl, nofun⟩, ⟨fun hthere ↦ ?_, nofun, nofun⟩⟩
    fun _ _ _ h hallowed hnext ↦
      ⟨h.1.next hallowed hnext, h.2.1.next hallowed hnext, h.2.2.next h.1 hnext⟩
  · obtain ⟨hwatchdog, hqemu, hfile⟩ := h
    have horphaned := orphaned_of_reachable hreach
    refine ⟨hwatchdog.dead (by rw [hdone]; rfl), ?_, hfile.removed (by rw [hdone]; rfl), ?_⟩
    · by_contra hlives
      rcases hqemu.named (Bool.eq_true_of_not_eq_false hlives) with hset | hnote
      · exact absurd (hset.symm.trans (hqemu.forgotten (by rw [hdone]; rfl))) (by decide)
      · exact absurd (hdone.symm.trans hnote) (by decide)
    · intro child hthere
      refine ⟨(horphaned.exited (by rw [hthere]; nofun)).2, fun htimeout ↦ ?_⟩
      exact horphaned.waiting (.inr (.inr (by rw [hthere, htimeout])))
  · rcases hthere with hthere | hthere <;> cases hthere

/-- The script is interrupted while it waits for QEMU, which goes on; it cleans up, and the shell of
the watchdog dies of its signal. -/
def interruptedWait : List Event :=
  List.replicate 6 .script ++ .signal .int :: List.replicate 2 .script ++
    .watchdogDies true :: List.replicate 9 .script

/-- It leaves the `sleep` for the timeout. -/
theorem only_sleep_left_interrupted :
    ∃ s, run (next []) interruptedWait start = some s ∧ s.pc = .done ∧ s.exitStatus = 130 ∧
      s.orphan = some .timeout ∧
      s.watchdog.alive = false ∧ s.survives = false ∧ s.flagFile = false ∧
      ∀ child, s.orphan = some child →
        s.dismissed = true ∧ (child = .timeout → s.expired = false) := by
  obtain ⟨s, hrun, hdone, hstatus, hleft⟩ : ∃ s,
      run (next []) interruptedWait start = some s ∧ s.pc = .done ∧ s.exitStatus = 130 ∧
        s.orphan = some .timeout := ⟨_, rfl, rfl, rfl, rfl⟩
  have hnoted : EveryStep (next []) Noted interruptedWait start := by decide
  exact ⟨s, hrun, hdone, hstatus, hleft, only_sleep_left (hnoted.reachable_where hrun) hdone⟩

/-- A QEMU that exits in time leaves the `sleep` for the timeout behind as well. -/
theorem timeout_sleep_survives :
    ∃ s, run (next semihostingArgs) inTime start = some s ∧ s.pc = .done ∧
      s.orphan = some .timeout := ⟨_, rfl, rfl, rfl⟩

/-- A signal between the start of QEMU and the assignment of its id leaves QEMU running. -/
theorem unnoted_qemu_survives :
    ∃ s, run (next []) (List.replicate 3 .script ++ .signal .term :: List.replicate 4 .script)
      start = some s ∧ s.pc = .done ∧ s.survives = true := ⟨_, rfl, rfl, rfl⟩

/-! ## The end of the script -/

/-- Nobody outside has to do anything for this event: it is not a signal to the script, nor an end
of QEMU that SIGKILL does not force. -/
def ownEvent (s : State) : Event → Bool
  | .signal _ => false
  | .qemuExits _ => s.killed
  | .script | .mktempFails | .watchdog | .watchdogDies _ | .sleepEnds => true

/-- The events that need nobody outside. -/
def own (args : List (List Char)) (s : State) (event : Event) : Option State :=
  if ownEvent s event then next args s event else none

/-- How many commands of the script are left at most, and of the processes that they start. -/
def Pc.rank : Pc → ℕ
  | mktemp => 32
  | removeStale => 31
  | startQemu => 30
  | noteQemu => 28
  | startWatchdog => 27
  | noteWatchdog => 21
  | waitQemu => 20
  | forgetQemu => 19
  | killWatchdog => 18
  | waitWatchdog => 17
  | forgetWatchdog => 16
  | testFlag => 15
  | removeFlag => 14
  | forgetFlag => 13
  | verdict => 12
  | cleanup => 11
  | cleanupKillWatchdog => 10
  | cleanupWaitWatchdog => 9
  | cleanupForgetWatchdog => 8
  | cleanupTestQemu => 7
  | cleanupTermQemu => 6
  | cleanupSleep => 5
  | cleanupKillQemu => 4
  | cleanupForgetQemu => 3
  | cleanupTestFlag => 2
  | cleanupRemoveFlag => 1
  | done => 0

/-- How many commands of the watchdog are left. -/
def Watchdog.rank : Watchdog → ℕ
  | sleep => 5
  | flag => 4
  | term => 3
  | grace => 2
  | kill => 1
  | absent | exited => 0

/-- The end of QEMU. -/
def Qemu.rank : Qemu → ℕ
  | running => 1
  | absent | exited _ => 0

/-- The end of a `sleep` without its watchdog. -/
def orphanRank : Option Sleep → ℕ
  | some _ => 1
  | none => 0

/-- How many events are left at most. -/
def State.rank (s : State) : ℕ :=
  s.pc.rank + s.watchdog.rank + s.qemu.rank + orphanRank s.orphan

/-- The next command of the script. -/
theorem rank_script (hstep : script args s = some s') : s'.rank < s.rank := by
  unfold QemuRun.script at hstep
  unfold State.rank
  cases hpc : s.pc <;> simp only [hpc, killQemu_eq] at hstep
  case waitQemu =>
    cases hqemu : s.qemu <;> simp only [hqemu] at hstep <;> cases hstep
    simp only [Pc.rank]
    omega
  case waitWatchdog | cleanupWaitWatchdog =>
    split_ifs at hstep
    cases hstep
    simp only [Pc.rank]
    omega
  case startQemu | startWatchdog =>
    cases hstep
    simp only [Pc.rank, Qemu.rank, Watchdog.rank]
    omega
  case cleanup =>
    cases hstep
    cases s.watchdogPid <;> simp [Pc.rank]
  case cleanupTestQemu =>
    cases hstep
    cases s.qemuPid <;> simp [Pc.rank]
  case cleanupTestFlag =>
    cases hstep
    cases s.timeoutFlag <;> simp [Pc.rank]
  case done => cases hstep
  all_goals
    cases hstep
    simp only [Pc.rank]
    omega

/-- The next command of the watchdog. -/
theorem rank_watchdog (hstep : watchdog s = some s') : s'.rank < s.rank := by
  unfold QemuRun.watchdog at hstep
  unfold State.rank
  cases hwatchdog : s.watchdog <;> simp only [hwatchdog, killQemu_eq] at hstep <;> cases hstep <;>
    simp only [Watchdog.rank] <;> omega

/-- Every event but a signal to the script leaves fewer of them. -/
theorem rank_own {event : Event} (hnext : own args s event = some s') : s'.rank < s.rank := by
  simp only [own, Option.ite_none_right_eq_some] at hnext
  obtain ⟨hown, hnext⟩ := hnext
  cases event with
  | script => exact rank_script hnext
  | watchdog => exact rank_watchdog hnext
  | mktempFails =>
      simp only [QemuRun.next, Option.ite_none_right_eq_some, Option.some.injEq] at hnext
      obtain ⟨hpc, rfl⟩ := hnext
      simp only [State.rank, hpc, Pc.rank]
      omega
  | watchdogDies started =>
      simp only [QemuRun.next, Option.ite_none_right_eq_some, Option.some.injEq] at hnext
      obtain ⟨⟨-, halive⟩, rfl⟩ := hnext
      have hless : orphanRank (if started then s.watchdog.child else none) < s.watchdog.rank := by
        cases started <;> cases hwatchdog : s.watchdog <;> rw [hwatchdog] at halive <;> first
          | decide
          | cases halive
      have hexited : Watchdog.exited.rank = 0 := rfl
      simp only [State.rank]
      omega
  | sleepEnds =>
      have hnext : sleepEnds s = some s' := hnext
      unfold sleepEnds at hnext
      obtain ⟨child, hthere, rfl⟩ := Option.map_eq_some_iff.mp hnext
      simp only [State.rank, hthere, orphanRank]
      omega
  | qemuExits status =>
      simp only [QemuRun.next, Option.ite_none_right_eq_some, Option.some.injEq] at hnext
      obtain ⟨hrunning, rfl⟩ := hnext
      simp only [State.rank, hrunning, Qemu.rank]
      omega
  | signal interrupt => cases hown

/-- The commands before the end of QEMU has been noticed, those with QEMU started, those with the
watchdog started, and those while nobody has dismissed it. -/
def Pc.early : Pc → Bool
  | mktemp | removeStale | startQemu | noteQemu | startWatchdog | noteWatchdog | waitQemu => true
  | _ => false

def Pc.qemuStarted : Pc → Bool
  | noteQemu | startWatchdog | noteWatchdog | waitQemu => true
  | _ => false

def Pc.watchdogStarted : Pc → Bool
  | noteWatchdog | waitQemu | forgetQemu | killWatchdog | waitWatchdog | cleanupKillWatchdog
  | cleanupWaitWatchdog => true
  | _ => false

def Pc.guarded : Pc → Bool
  | noteWatchdog | waitQemu => true
  | _ => false

/-- What the script waits for has been started, and while it waits for QEMU the watchdog does not
exit without killing it. -/
structure Going (s : State) : Prop where
  dismissed : s.pc.early = true → s.dismissed = false
  qemu : s.pc.qemuStarted = true → s.qemu ≠ .absent
  watchdog : s.watchdogPid = true ∨ s.pc.watchdogStarted = true → s.watchdog ≠ .absent
  guarded : s.pc.guarded = true → s.watchdog = .exited → s.survives = false

theorem Pc.early_of_qemu_started {pc : Pc} (h : pc.qemuStarted = true) : pc.early = true := by
  cases pc <;> first | rfl | cases h

theorem Pc.qemu_started_of_guarded {pc : Pc} (h : pc.guarded = true) : pc.qemuStarted = true := by
  cases pc <;> first | rfl | cases h

/-- A command after the end of QEMU has been noticed. -/
theorem Going.keep (h : Going s) (hwatchdog : s'.watchdog = s.watchdog)
    (hpid : s'.watchdogPid = true → s.watchdogPid = true) (hearly : ¬ s'.pc.early = true)
    (hstarted : s'.pc.watchdogStarted = true → s.watchdog ≠ .absent) : Going s' where
  dismissed hnow := absurd hnow hearly
  qemu hnow := absurd (Pc.early_of_qemu_started hnow) hearly
  watchdog hthere := by
    rw [hwatchdog]
    rcases hthere with hset | hnow
    · exact h.watchdog (.inl (hpid hset))
    · exact hstarted hnow
  guarded hnow := absurd (Pc.early_of_qemu_started (Pc.qemu_started_of_guarded hnow)) hearly

/-- The next command of the script. -/
theorem Going.script (h : Going s) (hstep : script args s = some s') : Going s' := by
  unfold QemuRun.script at hstep
  have hearly := h.dismissed
  have hqemuStarted := h.qemu
  have hstarted := fun hnow ↦ h.watchdog (.inr hnow)
  cases hpc : s.pc <;> simp only [hpc, killQemu_eq] at hstep hearly hqemuStarted hstarted
  case mktemp | removeStale =>
    cases hstep
    exact ⟨fun _ ↦ hearly rfl, nofun, fun hset ↦ h.watchdog (hset.imp_right nofun), nofun⟩
  case startQemu =>
    cases hstep
    exact ⟨fun _ ↦ hearly rfl, fun _ ↦ nofun, fun hset ↦ h.watchdog (hset.imp_right nofun), nofun⟩
  case noteQemu =>
    cases hstep
    exact ⟨fun _ ↦ hearly rfl, fun _ ↦ hqemuStarted rfl,
      fun hset ↦ h.watchdog (hset.imp_right nofun), nofun⟩
  case startWatchdog =>
    cases hstep
    exact ⟨fun _ ↦ hearly rfl, fun _ ↦ hqemuStarted rfl, fun _ ↦ nofun, fun _ ↦ nofun⟩
  case noteWatchdog =>
    cases hstep
    exact ⟨fun _ ↦ hearly rfl, fun _ ↦ hqemuStarted rfl, fun _ ↦ hstarted rfl,
      fun _ ↦ h.guarded (by rw [hpc]; rfl)⟩
  case waitQemu =>
    cases hqemu : s.qemu <;> simp only [hqemu] at hstep <;> cases hstep
    exact h.keep rfl id nofun fun _ ↦ hstarted rfl
  case forgetQemu | killWatchdog | cleanupKillWatchdog =>
    cases hstep
    exact h.keep rfl id nofun fun _ ↦ hstarted rfl
  case waitWatchdog | cleanupWaitWatchdog =>
    split_ifs at hstep
    cases hstep
    exact h.keep rfl id nofun nofun
  case forgetWatchdog | cleanupForgetWatchdog =>
    cases hstep
    exact h.keep rfl nofun nofun nofun
  case cleanup =>
    cases hstep
    cases hpid : s.watchdogPid with
    | true => exact h.keep rfl (fun _ ↦ hpid) nofun fun _ ↦ h.watchdog (.inl hpid)
    | false => exact h.keep rfl nofun nofun nofun
  case cleanupTestQemu =>
    cases hstep
    cases s.qemuPid <;> exact h.keep rfl id nofun nofun
  case cleanupTestFlag =>
    cases hstep
    cases s.timeoutFlag <;> exact h.keep rfl id nofun nofun
  case testFlag | removeFlag | forgetFlag | verdict | cleanupTermQemu | cleanupSleep |
      cleanupKillQemu | cleanupForgetQemu | cleanupRemoveFlag =>
    cases hstep
    exact h.keep rfl id nofun nofun
  case done => cases hstep

/-- The watchdog exits only after it has sent SIGKILL. -/
theorem watchdog_exits (hstep : watchdog s = some s') :
    s'.watchdog ≠ .absent ∧ (s'.watchdog = .exited → s'.survives = false) := by
  unfold QemuRun.watchdog at hstep
  cases hwatchdog : s.watchdog <;> simp only [hwatchdog] at hstep <;> cases hstep
  case sleep | flag | term | grace => exact ⟨nofun, nofun⟩
  case kill => exact ⟨nofun, fun _ ↦ not_survives_of_nine⟩

/-- Any event. -/
theorem Going.next (h : Going s) {event : Event} (hnext : next args s event = some s') :
    Going s' := by
  cases event with
  | script => exact h.script hnext
  | watchdog =>
      obtain ⟨-, hpc, hqemu, -, -, -, -, hdismissed, -⟩ := watchdog_keeps hnext
      obtain ⟨hthere, hexits⟩ := watchdog_exits hnext
      refine ⟨fun hnow ↦ ?_, fun hnow ↦ ?_, fun _ ↦ hthere, fun _ ↦ hexits⟩
      · rw [hpc] at hnow
        exact hdismissed.trans (h.dismissed hnow)
      · rw [hpc] at hnow
        rw [hqemu]
        exact h.qemu hnow
  -- while the script waits for QEMU, nobody has dismissed the watchdog
  | watchdogDies started =>
      simp only [QemuRun.next, Option.ite_none_right_eq_some, Option.some.injEq] at hnext
      obtain ⟨⟨hdismissed, -⟩, rfl⟩ := hnext
      refine ⟨h.dismissed, h.qemu, fun _ ↦ nofun, fun hnow ↦ ?_⟩
      have hfresh : s.dismissed = false :=
        h.dismissed (Pc.early_of_qemu_started (Pc.qemu_started_of_guarded hnow))
      exact absurd (hdismissed.symm.trans hfresh) (by decide)
  | sleepEnds =>
      obtain ⟨expired, rfl, -⟩ := sleep_ends_eq hnext
      exact ⟨h.dismissed, h.qemu, h.watchdog, h.guarded⟩
  | qemuExits status =>
      simp only [QemuRun.next, Option.ite_none_right_eq_some, Option.some.injEq] at hnext
      obtain ⟨-, rfl⟩ := hnext
      exact ⟨h.dismissed, fun _ ↦ nofun, h.watchdog, fun _ _ ↦ rfl⟩
  | mktempFails =>
      simp only [QemuRun.next, Option.ite_none_right_eq_some, Option.some.injEq] at hnext
      obtain ⟨-, rfl⟩ := hnext
      exact h.keep rfl id nofun nofun
  | signal interrupt =>
      simp only [QemuRun.next, Option.ite_none_left_eq_some, Option.some.injEq] at hnext
      obtain ⟨-, rfl⟩ := hnext
      exact h.keep rfl id nofun nofun

/-- A watchdog that runs can go on. -/
theorem watchdog_enabled (halive : s.watchdog.alive = true) : ∃ s', watchdog s = some s' := by
  unfold QemuRun.watchdog
  cases hwatchdog : s.watchdog <;> rw [hwatchdog] at halive <;> first
    | exact ⟨_, rfl⟩
    | cases halive

/-- A script for which no event of its own is left is done. -/
theorem Going.done_of_stuck (h : Going s) (hstuck : ∀ event, own args s event = none) :
    s.pc = .done := by
  have hscript : QemuRun.script args s = none := hstuck .script
  have hwatchdog : QemuRun.watchdog s = none := hstuck .watchdog
  have hdead : s.watchdog.alive = false := by
    by_contra halive
    obtain ⟨s', hstep⟩ := watchdog_enabled (Bool.eq_true_of_not_eq_false halive)
    exact absurd (hwatchdog.symm.trans hstep) (by simp)
  have hexited (hthere : s.watchdog ≠ .absent) : s.watchdog = .exited := by
    cases hw : s.watchdog <;> rw [hw] at hdead hthere <;> first
      | rfl
      | exact absurd rfl hthere
      | cases hdead
  unfold QemuRun.script at hscript
  cases hpc : s.pc <;> simp only [hpc] at hscript
  case waitQemu =>
    have hthere : s.watchdog ≠ .absent := h.watchdog (.inr (by rw [hpc]; rfl))
    have hkilled : s.survives = false := h.guarded (by rw [hpc]; rfl) (hexited hthere)
    cases hqemu : s.qemu with
    | absent => exact absurd hqemu (h.qemu (by rw [hpc]; rfl))
    | exited status => simp [hqemu] at hscript
    | running =>
        have hexit := hstuck (.qemuExits 0)
        unfold State.survives at hkilled
        rw [hqemu, decide_eq_true rfl, Bool.true_and, Bool.not_eq_false'] at hkilled
        simp [own, ownEvent, hkilled, QemuRun.next, hqemu] at hexit
  case waitWatchdog | cleanupWaitWatchdog =>
    have hthere : s.watchdog ≠ .absent := h.watchdog (.inr (by rw [hpc]; rfl))
    rw [if_pos (hexited hthere)] at hscript
    cases hscript
  case done => rfl
  all_goals cases hscript

/-- The script ends whatever QEMU does: from every state that it can reach, signals included, at
most 38 events follow in any order, without a further signal and an end of QEMU that nobody forces,
and then the script is done. -/
theorem script_ends (hreach : Reachable (next args) start s) {events : List Event} {finish : State}
    (hrun : run (own args) events s = some finish) :
    events.length ≤ 38 ∧ ((∀ event, own args finish event = none) → finish.pc = .done) := by
  constructor
  · have hlength := run_length_le State.rank (fun _ _ _ hnext ↦ rank_own hnext) hrun
    have hpc : s.pc.rank ≤ 32 := by cases s.pc <;> decide
    have hwatchdog : s.watchdog.rank + orphanRank s.orphan ≤ 5 := by
      cases horphan : s.orphan with
      | none => cases s.watchdog <;> decide
      | some child =>
          rw [((orphaned_of_reachable hreach).exited (by rw [horphan]; nofun)).1]
          show 0 + 1 ≤ 5
          decide
    have hqemu : s.qemu.rank ≤ 1 := by
      cases s.qemu with
      | running => exact Nat.le_refl 1
      | absent | exited => exact Nat.zero_le 1
    unfold State.rank at hlength
    omega
  · intro hstuck
    have hgoing : Going finish := by
      have hstart : Going s := hreach.invariant Going
        ⟨fun _ ↦ rfl, nofun, fun hset ↦ (hset.elim nofun nofun), nofun⟩
        fun _ _ _ h _ hnext ↦ h.next hnext
      refine (reachable_of_run hrun).invariant Going hstart fun state event finish h _ hnext ↦ ?_
      simp only [own, Option.ite_none_right_eq_some] at hnext
      exact h.next hnext.2
    exact hgoing.done_of_stuck hstuck

/-- QEMU neither exits by itself nor heeds SIGTERM. -/
def stubborn : List Event :=
  List.replicate 6 .script ++ List.replicate 5 .watchdog ++
    .qemuExits 137 :: List.replicate 12 .script

/-- The watchdog kills it, and the script is done. -/
theorem script_ends_stubborn :
    ∃ finish, run (own semihostingArgs) stubborn start = some finish ∧ stubborn.length ≤ 38 ∧
      finish.pc = .done ∧ finish.exitStatus = 1 := by
  obtain ⟨finish, hrun, hstuck, hstatus⟩ : ∃ finish,
      run (own semihostingArgs) stubborn start = some finish ∧
        (∀ event, own semihostingArgs finish event = none) ∧ finish.exitStatus = 1 := by
    refine ⟨_, rfl, fun event ↦ ?_, ?_⟩
    · cases event <;> rfl
    · decide
  obtain ⟨hlength, hends⟩ := script_ends .refl hrun
  exact ⟨finish, hrun, hlength, hends hstuck, hstatus⟩

end ThreadMetric.Ci.QemuRun
