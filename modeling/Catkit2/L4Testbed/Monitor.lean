import Catkit2.Core.LTS
import Catkit2.L4Testbed.Config
import Mathlib.Data.Int.Order.Basic

/-!
# Monitoring a service (testbed.py Testbed.monitor_services, Service.cpp Service::Run)

One service and the monitor thread of the testbed, which both write the state
stream of the service. The service writes its states and heartbeats in the
order of `Run`, and its process may end at any point. The monitor reads the
state three times in each round, and the process or the heartbeat before it
writes; every read, every look at the clock and every write is one step.
A process that exited still exists until it is reaped. `difference` is what
NumPy makes of `time_stamp - heartbeat_time`.

Of the processes of a service the last one is followed. `terminal` is the
terminal state that it wrote, `none` until then.

* `terminal_state_stays`: a terminal state stays the newest one as long as no
  write of the monitor is decided by then, and none is decided from then on by
  a check whose state read came before.
* `closed_recorded_unresponsive`: without that, a service that closed cleanly
  is recorded as unresponsive.
-/
namespace Catkit2.L4

/-- How far the process is: what it wrote, or did, last. -/
inductive ServicePhase where
  | launched | registered | initialized | opening
  /-- The first heartbeat is out, the heartbeat thread runs. -/
  | opened
  | running | closing
  /-- The terminal state is written, the last heartbeat is not. -/
  | closed
  | done
  deriving DecidableEq, Repr

inductive ProcessStatus where
  | alive | exited | gone
  deriving DecidableEq, Repr

structure ServiceProcess where
  pid : Nat
  phase : ServicePhase
  status : ProcessStatus

/-- Where the monitor thread is: what it does next. -/
inductive MonitorPc where
  | readState | readProcess | writeCrashed
  | readRunning | readHeartbeat
  | compareLate (heartbeat_time : Nat)
  | writeUnresponsive
  | readUnresponsive | readHeartbeatAgain
  | compareFresh (heartbeat_time : Nat)
  | writeRunning
  /-- An exception ended the thread. -/
  | dead
  deriving DecidableEq, Repr

/-- `state` is the newest frame of the state stream. `heartbeat` is the
heartbeat stream of the service reference with its newest frame. -/
structure Monitored where
  state : ServiceState
  process_id : Option Nat
  heartbeat : Option (Option Nat)
  process : Option ServiceProcess
  terminal : Option ServiceState
  monitor : MonitorPc

inductive MonitoredStep where
  | start (pid : Nat)
  | register
  /-- `UpdateState`, but for the terminal states. -/
  | update
  | heartbeat (time_stamp : Nat)
  | finish (state : ServiceState)
  | zero
  | exit
  | reap
  | monitor (time_stamp : Nat)

/-- 5 s, in ns.
mirrors catkit2/testbed/testbed.py:22 -/
def SERVICE_LIVELINESS : Int := 5000000000

/-! ## The service -/

/-- The next state that is not terminal.
mirrors catkit_core/Service.cpp:49, 98, 148, 172 -/
def ServicePhase.update : ServicePhase → Option (ServiceState × ServicePhase)
  | .registered => some (.INITIALIZING, .initialized)
  | .initialized => some (.OPENING, .opening)
  | .opened => some (.RUNNING, .running)
  | .running => some (.CLOSING, .closing)
  | _ => none

/-- The first heartbeat, and those of the heartbeat thread.
mirrors catkit_core/Service.cpp:122-127, 274-293 -/
def ServicePhase.heartbeat : ServicePhase → Option ServicePhase
  | .opening | .opened => some .opened
  | .running => some .running
  | _ => none

/-- The terminal states: without `requires_safety`, unsafe, after an exception
in `Open`, and after `Close`.
mirrors catkit_core/Service.cpp:69-112, 185-199 -/
def ServicePhase.finish : ServicePhase → ServiceState → Option ServicePhase
  | .initialized, .CRASHED | .initialized, .FAIL_SAFE | .opening, .CRASHED => some .done
  | .closing, .CLOSED | .closing, .CRASHED | .closing, .FAIL_SAFE => some .closed
  | _, _ => none

namespace Monitored

/-- The process that can still act. -/
def alive (s : Monitored) : Option ServiceProcess :=
  s.process.filter (·.status = .alive)

/-! ## The monitor -/

/-- What reading the `process` property returns.
mirrors catkit2/testbed/testbed.py:121-130 -/
def findProcess (s : Monitored) : Option Nat :=
  match s.process_id, s.process with
  | some pid, some p => if p.pid = pid ∧ p.status ≠ .gone then some pid else none
  | _, _ => none

/-- mirrors catkit2/testbed/testbed.py:376-413 -/
def monitorStep (difference : Nat → Nat → Int) (s : Monitored) (time_stamp : Nat) : Option Monitored :=
  match s.monitor with
  | .readState =>
    some { s with monitor := if startable s.state then .readRunning else .readProcess }
  | .readProcess =>
    match s.findProcess with
    | none => some { s with process_id := none, monitor := .writeCrashed }
    | some _ => some { s with monitor := .readRunning }
  | .writeCrashed => some { s with state := .CRASHED, monitor := .readRunning }
  | .readRunning =>
    some { s with monitor := if s.state = .RUNNING then .readHeartbeat else .readUnresponsive }
  | .readHeartbeat =>
    match s.heartbeat with
    | some (some heartbeat_time) => some { s with monitor := .compareLate heartbeat_time }
    | _ => some { s with monitor := .dead }
  | .compareLate heartbeat_time =>
    some { s with monitor :=
      if difference time_stamp heartbeat_time > SERVICE_LIVELINESS then .writeUnresponsive
      else .readUnresponsive }
  | .writeUnresponsive => some { s with state := .UNRESPONSIVE, monitor := .readUnresponsive }
  | .readUnresponsive =>
    some { s with monitor := if s.state = .UNRESPONSIVE then .readHeartbeatAgain else .readState }
  | .readHeartbeatAgain =>
    match s.heartbeat with
    | some (some heartbeat_time) => some { s with monitor := .compareFresh heartbeat_time }
    | _ => some { s with monitor := .dead }
  | .compareFresh heartbeat_time =>
    some { s with monitor :=
      if difference time_stamp heartbeat_time < SERVICE_LIVELINESS then .writeRunning else .readState }
  | .writeRunning => some { s with state := .RUNNING, monitor := .readState }
  | .dead => none

/-- The process reached a phase. -/
def reached (s : Monitored) (p : ServiceProcess) (phase : ServicePhase) : Monitored :=
  { s with process := some { p with phase := phase } }

def step (difference : Nat → Nat → Int) (s : Monitored) : MonitoredStep → Option Monitored
  | .start pid =>
    if startable s.state then
      some { s with
        state := .INITIALIZING
        process_id := some pid
        process := some ⟨pid, .launched, .alive⟩
        terminal := none }
    else none
  | .register =>
    match s.alive with
    | some p =>
      if p.phase = .launched then
        some { s.reached p .registered with process_id := some p.pid, heartbeat := some none }
      else none
    | none => none
  | .update =>
    match s.alive with
    | some p => p.phase.update.map fun (state, phase) => { s.reached p phase with state := state }
    | none => none
  | .heartbeat time_stamp =>
    match s.alive with
    | some p => p.phase.heartbeat.map fun phase =>
      { s.reached p phase with heartbeat := some (some time_stamp) }
    | none => none
  | .finish state =>
    match s.alive with
    | some p => (p.phase.finish state).map fun phase =>
      { s.reached p phase with state := state, terminal := some state }
    | none => none
  | .zero =>
    match s.alive with
    | some p =>
      if p.phase = .closed then some { s.reached p .done with heartbeat := some (some 0) } else none
    | none => none
  | .exit =>
    match s.alive with
    | some p => some { s with process := some { p with status := .exited } }
    | none => none
  | .reap =>
    match s.process with
    | some p =>
      if p.status = .exited then some { s with process := some { p with status := .gone } } else none
    | none => none
  | .monitor time_stamp => monitorStep difference s time_stamp

/-- A service that was never started. -/
def init (s : Monitored) : Prop :=
  s.state = .CLOSED ∧ s.process_id = none ∧ s.heartbeat = none ∧ s.process = none ∧
    s.terminal = none ∧ s.monitor = .readState

end Monitored

def monitored (difference : Nat → Nat → Int) : LTS Monitored MonitoredStep :=
  .ofFn Monitored.init (Monitored.step difference)

/-! ## When a terminal state stays -/

/-- What the next step of the monitor writes. -/
def MonitorPc.writes : MonitorPc → Option ServiceState
  | .writeCrashed => some .CRASHED
  | .writeUnresponsive => some .UNRESPONSIVE
  | .writeRunning => some .RUNNING
  | _ => none

namespace Monitored

/-- The monitor's next step writes something else than `st`. -/
def Decided (s : Monitored) (st : ServiceState) : Prop := ∃ w, s.monitor.writes = some w ∧ w ≠ st

/-- Once the terminal state is written, the check that the monitor is in finds
the process (or would write the same), the heartbeat in time, or still late. -/
def Passes (difference : Nat → Nat → Int) (s : Monitored) (time_stamp : Nat) : Prop :=
  match s.terminal, s.monitor with
  | some st, .readProcess => s.findProcess ≠ none ∨ st = .CRASHED
  | some _, .compareLate heartbeat_time => difference time_stamp heartbeat_time ≤ SERVICE_LIVELINESS
  | some _, .compareFresh heartbeat_time => SERVICE_LIVELINESS ≤ difference time_stamp heartbeat_time
  | _, _ => True

/-- The terminal state is written when the monitor has decided on no other
write, and whatever it checks from then on passes. -/
def Timely (difference : Nat → Nat → Int) (s : Monitored) : MonitoredStep → Prop
  | .finish state => ¬ Decided s state
  | .monitor time_stamp => Passes difference s time_stamp
  | _ => True

/-- A terminal state that was written is the newest one, and the process
writes no other. -/
structure Stays (s : Monitored) : Prop where
  state : ∀ st, s.terminal = some st → s.state = st ∧ startable st = true
  undecided : ∀ st, s.terminal = some st → ¬ Decided s st
  atEnd : s.terminal ≠ none → ∀ p, s.process = some p → p.phase = .closed ∨ p.phase = .done

variable {difference : Nat → Nat → Int} {s s' : Monitored}

theorem startable_of_finish {phase next : ServicePhase} {st : ServiceState}
    (h : phase.finish st = some next) : startable st = true ∧ (next = .closed ∨ next = .done) := by
  unfold ServicePhase.finish at h
  split at h <;> cases h <;> simp [startable]

theorem process_of_alive {p : ServiceProcess} (h : s.alive = some p) : s.process = some p := by
  exact Option.eq_some_of_filter_eq_some h

/-- A write of the monitor. -/
theorem state_of_writes {w : ServiceState} {time_stamp : Nat} (hw : s.monitor.writes = some w)
    (hst : monitorStep difference s time_stamp = some s') : s'.state = w ∧ s'.terminal = s.terminal ∧
      s'.process = s.process ∧ s'.monitor.writes = none := by
  unfold MonitorPc.writes at hw
  split at hw
  · rename_i hm
    simp only [monitorStep, hm] at hst
    cases hw; cases hst
    exact ⟨rfl, rfl, rfl, rfl⟩
  · rename_i hm
    simp only [monitorStep, hm] at hst
    cases hw; cases hst
    exact ⟨rfl, rfl, rfl, rfl⟩
  · rename_i hm
    simp only [monitorStep, hm] at hst
    cases hw; cases hst
    exact ⟨rfl, rfl, rfl, rfl⟩
  · cases hw

/-- The other steps of the monitor write no state. Those that lead to a write
are a process that is not found, a heartbeat too late, and one in time again. -/
theorem monitorStep_cases {time_stamp : Nat} (hw : s.monitor.writes = none)
    (hst : monitorStep difference s time_stamp = some s') : s'.state = s.state ∧
      s'.terminal = s.terminal ∧ s'.process = s.process ∧
      (s'.monitor.writes = none ∨
        (s.monitor = .readProcess ∧ s.findProcess = none ∧ s'.monitor = .writeCrashed) ∨
        (∃ hb, s.monitor = .compareLate hb ∧ difference time_stamp hb > SERVICE_LIVELINESS ∧
          s'.monitor = .writeUnresponsive) ∨
        ∃ hb, s.monitor = .compareFresh hb ∧ difference time_stamp hb < SERVICE_LIVELINESS ∧
          s'.monitor = .writeRunning) := by
  cases hm : s.monitor with
  | readState =>
    simp only [monitorStep, hm] at hst
    cases hst
    refine ⟨rfl, rfl, rfl, .inl ?_⟩
    split <;> rfl
  | readProcess =>
    simp only [monitorStep, hm] at hst
    split at hst
    · rename_i hnone
      cases hst
      exact ⟨rfl, rfl, rfl, .inr (.inl ⟨rfl, hnone, rfl⟩)⟩
    · cases hst
      exact ⟨rfl, rfl, rfl, .inl rfl⟩
  | readRunning =>
    simp only [monitorStep, hm] at hst
    cases hst
    refine ⟨rfl, rfl, rfl, .inl ?_⟩
    split <;> rfl
  | readHeartbeat =>
    simp only [monitorStep, hm] at hst
    split at hst <;> cases hst <;> exact ⟨rfl, rfl, rfl, .inl rfl⟩
  | compareLate hb =>
    simp only [monitorStep, hm] at hst
    cases hst
    by_cases hlate : difference time_stamp hb > SERVICE_LIVELINESS
    · refine ⟨rfl, rfl, rfl, .inr (.inr (.inl ⟨hb, rfl, hlate, ?_⟩))⟩
      exact if_pos hlate
    · refine ⟨rfl, rfl, rfl, .inl ?_⟩
      simp only [if_neg hlate, MonitorPc.writes]
  | readUnresponsive =>
    simp only [monitorStep, hm] at hst
    cases hst
    refine ⟨rfl, rfl, rfl, .inl ?_⟩
    split <;> rfl
  | readHeartbeatAgain =>
    simp only [monitorStep, hm] at hst
    split at hst <;> cases hst <;> exact ⟨rfl, rfl, rfl, .inl rfl⟩
  | compareFresh hb =>
    simp only [monitorStep, hm] at hst
    cases hst
    by_cases hfresh : difference time_stamp hb < SERVICE_LIVELINESS
    · refine ⟨rfl, rfl, rfl, .inr (.inr (.inr ⟨hb, rfl, hfresh, ?_⟩))⟩
      exact if_pos hfresh
    · refine ⟨rfl, rfl, rfl, .inl ?_⟩
      simp only [if_neg hfresh, MonitorPc.writes]
  | dead => simp only [monitorStep, hm] at hst; cases hst
  | writeCrashed => rw [hm] at hw; cases hw
  | writeUnresponsive => rw [hm] at hw; cases hw
  | writeRunning => rw [hm] at hw; cases hw

theorem undecided_of_none {st : ServiceState} (h : s.monitor.writes = none) : ¬ Decided s st := by
  intro hd
  obtain ⟨w, hw, -⟩ := hd
  rw [h] at hw
  cases hw

/-- **One step of the monitor.** Nothing is decided by a check that is passed. -/
theorem stays_monitorStep (h : Stays s) {time_stamp : Nat}
    (hg : Timely difference s (.monitor time_stamp))
    (hst : monitorStep difference s time_stamp = some s') : Stays s' := by
  cases hw : s.monitor.writes with
  | some w =>
    obtain ⟨hstate, hterm, hproc, hnone⟩ := state_of_writes hw hst
    refine ⟨fun st ht => ?_, fun st _ => undecided_of_none hnone, ?_⟩
    · rw [hterm] at ht
      have hwst : w = st := by
        by_contra hne
        exact h.undecided st ht ⟨w, hw, hne⟩
      exact ⟨by rw [hstate, hwst], (h.state st ht).2⟩
    · rw [hterm, hproc]; exact h.atEnd
  | none =>
    obtain ⟨hstate, hterm, hproc, hpc⟩ := monitorStep_cases hw hst
    refine ⟨fun st ht => ?_, fun st ht => ?_, ?_⟩
    · rw [hterm] at ht; rw [hstate]; exact h.state st ht
    · rw [hterm] at ht
      rcases hpc with hnone | ⟨hm, hf, hm'⟩ | ⟨hb, hm, hlate, -⟩ | ⟨hb, hm, hfresh, -⟩
      · exact undecided_of_none hnone
      · simp only [Timely, Passes, ht, hm] at hg
        intro hd
        obtain ⟨w, hw', hne⟩ := hd
        rw [hm'] at hw'
        cases hw'
        rcases hg with hg | hg
        · exact hg hf
        · exact hne hg.symm
      · simp only [Timely, Passes, ht, hm] at hg
        exact absurd hg (not_le.mpr hlate)
      · simp only [Timely, Passes, ht, hm] at hg
        exact absurd hg (not_le.mpr hfresh)
    · rw [hterm, hproc]; exact h.atEnd

/-- A step of the process that writes no terminal state. -/
theorem Stays.keeps (h : Stays s) (hstate : s.terminal = none ∨ s'.state = s.state)
    (hterm : s'.terminal = s.terminal) (hm : s'.monitor = s.monitor)
    (hend : s.terminal ≠ none → ∀ p, s'.process = some p → p.phase = .closed ∨ p.phase = .done) :
    Stays s' := by
  refine ⟨fun st ht => ?_, fun st ht hd => ?_, ?_⟩
  · rw [hterm] at ht
    rcases hstate with hn | hs
    · rw [hn] at ht; cases ht
    · rw [hs]; exact h.state st ht
  · rw [hterm] at ht
    obtain ⟨w, hw, hne⟩ := hd
    rw [hm] at hw
    exact h.undecided st ht ⟨w, hw, hne⟩
  · rw [hterm]; exact hend

/-- The steps of the process, and of the system with it, that write no
terminal state. -/
def ofProcess : MonitoredStep → Bool
  | .register | .update | .heartbeat _ | .zero | .exit | .reap => true
  | _ => false

/-- **What the process can do** besides its terminal state: it writes a state
only while it is not at its end, and where it is at its end it stays there. -/
theorem process_cases {l : MonitoredStep} (hl : ofProcess l = true) (hst : step difference s l = some s') :
    s'.terminal = s.terminal ∧ s'.monitor = s.monitor ∧ ∃ p q, s.process = some p ∧ s'.process = some q ∧
      (s'.state = s.state ∨ p.phase ≠ .closed ∧ p.phase ≠ .done) ∧
      (p.phase = .closed ∨ p.phase = .done → q.phase = .closed ∨ q.phase = .done) := by
  cases l with
  | register =>
    simp only [step] at hst
    split at hst
    · rename_i p hp
      split at hst
      · rename_i hph
        cases hst
        exact ⟨rfl, rfl, p, _, process_of_alive hp, rfl, .inl rfl, fun hend => by simp [hph] at hend⟩
      · cases hst
    · cases hst
  | update =>
    simp only [step] at hst
    split at hst
    · rename_i p hp
      obtain ⟨⟨state, phase⟩, hph, rfl⟩ := Option.map_eq_some_iff.mp hst
      have hc : p.phase ≠ .closed := by rintro hc; rw [hc] at hph; cases hph
      have hd : p.phase ≠ .done := by rintro hd; rw [hd] at hph; cases hph
      exact ⟨rfl, rfl, p, _, process_of_alive hp, rfl, .inr ⟨hc, hd⟩, fun hend => (hend.elim hc hd).elim⟩
    · cases hst
  | heartbeat time_stamp =>
    simp only [step] at hst
    split at hst
    · rename_i p hp
      obtain ⟨phase, hph, rfl⟩ := Option.map_eq_some_iff.mp hst
      refine ⟨rfl, rfl, p, _, process_of_alive hp, rfl, .inl rfl, fun hend => ?_⟩
      rcases hend with hend | hend <;> (rw [hend] at hph; cases hph)
    · cases hst
  | zero =>
    simp only [step] at hst
    split at hst
    · rename_i p hp
      split at hst
      · cases hst
        exact ⟨rfl, rfl, p, _, process_of_alive hp, rfl, .inl rfl, fun _ => .inr rfl⟩
      · cases hst
    · cases hst
  | exit =>
    simp only [step] at hst
    split at hst
    · rename_i p hp
      cases hst
      exact ⟨rfl, rfl, p, _, process_of_alive hp, rfl, .inl rfl, fun hend => hend⟩
    · cases hst
  | reap =>
    simp only [step] at hst
    split at hst
    · rename_i p hp
      split at hst
      · cases hst
        exact ⟨rfl, rfl, p, _, hp, rfl, .inl rfl, fun hend => hend⟩
      · cases hst
    · cases hst
  | start pid => cases hl
  | finish state => cases hl
  | monitor time_stamp => cases hl

theorem stays_inductive (difference : Nat → Nat → Int) :
    ((monitored difference).restrict (Timely difference)).Inductive Stays := by
  refine ⟨fun s h => ?_, fun s l s' h hst => ?_⟩
  · obtain ⟨-, -, -, -, hterm, -⟩ := h
    refine ⟨fun st ht => ?_, fun st ht => ?_, fun hn => absurd hterm hn⟩
    · rw [hterm] at ht; cases ht
    · rw [hterm] at ht; cases ht
  · obtain ⟨hg, hst⟩ := hst
    simp only [monitored, LTS.ofFn] at hst
    cases l with
    | start pid =>
      simp only [step] at hst
      split at hst
      · cases hst
        refine ⟨fun st ht => ?_, fun st ht => ?_, fun hn => absurd rfl hn⟩
        · cases ht
        · cases ht
      · cases hst
    | register | update | heartbeat time_stamp | zero | exit | reap =>
      obtain ⟨hterm, hm, p, q, hp, hq, hstate, hend⟩ := process_cases rfl hst
      refine h.keeps ?_ hterm hm fun hn q' hq' => ?_
      · rcases hstate with hs | ⟨hc, hd⟩
        · exact .inr hs
        · refine .inl (by_contra fun hn => ?_)
          exact (h.atEnd hn p hp).elim hc hd
      · rw [hq] at hq'
        cases hq'
        exact hend (h.atEnd hn p hp)
    | finish state =>
      simp only [step] at hst
      split at hst
      · rename_i p hp
        obtain ⟨phase, hph, rfl⟩ := Option.map_eq_some_iff.mp hst
        obtain ⟨hstop, hend⟩ := startable_of_finish hph
        refine ⟨fun st ht => ?_, fun st ht => ?_, fun _ q hq => ?_⟩
        · cases ht; exact ⟨rfl, hstop⟩
        · cases ht; exact hg
        · cases hq; exact hend
      · cases hst
    | monitor time_stamp => exact stays_monitorStep h hg hst

/-- A step that is not timely is one too late: the monitor writes another
state next. -/
theorem decided_of_late (h : Stays s) {l : MonitoredStep} (hst : step difference s l = some s')
    (hl : ¬ Timely difference s l) :
    ∃ st, s'.terminal = some st ∧ startable st = true ∧ Decided s' st := by
  cases l with
  | finish state =>
    simp only [step] at hst
    split at hst
    · obtain ⟨phase, hph, rfl⟩ := Option.map_eq_some_iff.mp hst
      exact ⟨state, rfl, (startable_of_finish hph).1, not_not.mp hl⟩
    · cases hst
  | monitor time_stamp =>
    simp only [step] at hst
    simp only [Timely, Passes] at hl
    split at hl
    · rename_i st ht hm
      rw [not_or, not_not] at hl
      simp only [monitorStep, hm, hl.1] at hst
      cases hst
      exact ⟨st, ht, (h.state st ht).2, .CRASHED, rfl, Ne.symm hl.2⟩
    · rename_i st hb ht hm
      simp only [monitorStep, hm, if_pos (not_le.mp hl)] at hst
      cases hst
      refine ⟨st, ht, (h.state st ht).2, .UNRESPONSIVE, rfl, fun he => ?_⟩
      have := (h.state st ht).2
      rw [← he] at this; cases this
    · rename_i st hb ht hm
      simp only [monitorStep, hm, if_pos (not_le.mp hl)] at hst
      cases hst
      refine ⟨st, ht, (h.state st ht).2, .RUNNING, rfl, fun he => ?_⟩
      have := (h.state st ht).2
      rw [← he] at this; cases this
    · exact absurd trivial hl
  | start pid => exact absurd trivial hl
  | register => exact absurd trivial hl
  | update => exact absurd trivial hl
  | heartbeat time_stamp => exact absurd trivial hl
  | zero => exact absurd trivial hl
  | exit => exact absurd trivial hl
  | reap => exact absurd trivial hl

end Monitored

open Monitored

/-- **Terminal states stay.** In every run whose steps are all timely, the
terminal state that the service wrote is the newest one until the service is
started again. The first step of a run that is not leaves the monitor about to
write another one. -/
theorem terminal_state_stays (difference : Nat → Nat → Int) :
    (∀ s, ((monitored difference).restrict (Timely difference)).Reachable s →
      ∀ st, s.terminal = some st → s.state = st) ∧
    ∀ s, ((monitored difference).restrict (Timely difference)).Reachable s →
      ∀ l s', step difference s l = some s' → ¬ Timely difference s l →
        ∃ st, s'.terminal = some st ∧
          ∀ time_stamp s'', step difference s' (.monitor time_stamp) = some s'' → s''.state ≠ st := by
  refine ⟨fun s hs st ht => ?_, fun s hs l s' hst hl => ?_⟩
  · exact (((stays_inductive difference).reachable s hs).state st ht).1
  · obtain ⟨st, ht, -, w, hw, hne⟩ := decided_of_late ((stays_inductive difference).reachable s hs) hst hl
    refine ⟨st, ht, fun time_stamp s'' hst' => ?_⟩
    rw [(state_of_writes hw hst').1]
    exact hne

/-! ## A service that is stopped -/

/-- A difference of exact numbers. -/
def exactly (time_stamp heartbeat_time : Nat) : Int := (time_stamp : Int) - heartbeat_time

instance (s : Monitored) (st : ServiceState) : Decidable (Decided s st) :=
  decidable_of_iff (s.monitor.writes.any (· ≠ st)) (by simp [Decided, Option.any_eq_true])

instance (s : Monitored) (l : MonitoredStep) : Decidable (Timely exactly s l) := by
  unfold Timely Passes
  repeat' split
  all_goals infer_instance

def neverStarted : Monitored := ⟨.CLOSED, none, none, none, none, .readState⟩

theorem neverStarted_init : neverStarted.init := ⟨rfl, rfl, rfl, rfl, rfl, rfl⟩

/-- Started, registered, opened and running, with a heartbeat at 1 s. -/
def comesUp : List MonitoredStep :=
  [.start 7, .register, .update, .update, .heartbeat 1000000000, .update]

/-- The round of a monitor that finds a running service. -/
def round : List MonitoredStep := List.replicate 5 (.monitor 2000000000)

/-- It closes, and exits. -/
def goesDown : List MonitoredStep := [.update, .finish .CLOSED, .zero, .exit, .reap]

theorem terminal_state_stays_closed : ∃ s : Monitored, s.process_id = some 7 ∧ s.terminal = some .CLOSED ∧
    s.state = .CLOSED := by
  obtain ⟨s, hs, hpid, hterm⟩ : ∃ s,
      LTS.exec (LTS.guarded (Timely exactly) (step exactly)) neverStarted
        (comesUp ++ round ++ goesDown ++ List.replicate 3 (.monitor 3000000000)) = some s ∧
      s.process_id = some 7 ∧ s.terminal = some .CLOSED := ⟨_, rfl, by decide⟩
  refine ⟨s, hpid, hterm, ?_⟩
  exact (terminal_state_stays exactly).1 s (.of_guarded neverStarted_init hs) _ hterm

/-- The monitor has read that the service is running when it closes; it then
reads the last heartbeat, zero. -/
theorem closed_recorded_unresponsive : ¬ ∀ difference s, (monitored difference).Reachable s →
    ∀ st, s.terminal = some st → s.state = st := by
  intro h
  obtain ⟨s, hs, hterm, hstate⟩ : ∃ s, LTS.exec (step exactly) neverStarted
      (comesUp ++ List.replicate 3 (.monitor 2000000000) ++ goesDown ++
        List.replicate 3 (.monitor 6000000000)) = some s ∧
      s.terminal = some .CLOSED ∧ s.state = .UNRESPONSIVE := ⟨_, rfl, by decide⟩
  have := h _ _ (.of_exec neverStarted_init hs) _ hterm
  rw [hstate] at this
  cases this

end Catkit2.L4
