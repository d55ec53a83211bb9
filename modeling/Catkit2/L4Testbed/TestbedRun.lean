import Catkit2.L4Testbed.IsAlive

/-!
# A testbed's run (testbed.py, Testbed.run)

`run` starts its threads one after the other, waits, and in the `finally` blocks shuts
down the services, sets `shutdown_flag`, joins the threads and submits a last heartbeat
of zero. Everything in the body may raise, Ctrl+C may come anywhere, and the thread that
submits heartbeats goes on until it sees the flag.

A step is one access to what the threads share. What shuts down the services is in
`ShutDown`, what the monitor thread does in `Monitor`; here it may end at any time. That
a thread does not start is left out.

* `joined_step`: which threads are left where `run` is.
* `zeroed_of_ended`: the last heartbeat is zero when `run` ends, unless Ctrl+C comes in a
  `finally` block.
-/
namespace Catkit2.L4.TestbedRun

/-- Where `run` is. `aborted`: Ctrl+C came in a `finally` block.
mirrors catkit2/testbed/testbed.py:295-367 -/
inductive RunAt where
  | setUp
  | startHeartbeats
  | startServer
  | startMonitor
  | startServices
  | wait
  | request
  | shutDown
  | flag
  | joinHeartbeats
  | joinMonitor
  | zero
  | tearDown
  | ended
  | aborted

/-- mirrors catkit2/testbed/testbed.py:369-374 -/
inductive HeartbeatsAt where
  | unstarted
  | test
  | sleep
  | submit (timestamp : UInt64)
  | ended
  deriving DecidableEq

inductive MonitorAt where
  | unstarted | running | ended
  deriving DecidableEq

/-- `heartbeat_stream` are the heartbeats submitted to it. -/
structure State where
  run : RunAt
  heartbeats : HeartbeatsAt
  monitor : MonitorAt
  shutdown_requested : Bool
  shutdown_flag : Bool
  heartbeat_stream : List Heartbeat

/-- `ok` says whether the operation raises, or Ctrl+C comes, and `time` what the clock reads. -/
inductive Step where
  | run (ok : Bool) (time : UInt64)
  | heartbeats (time : UInt64)
  | monitorEnds
  /-- A client's request. -/
  | onShutDown

namespace State

def new : State := ⟨.setUp, .unstarted, .unstarted, false, false, []⟩

/-- The body goes on to `next`, or to the `finally` block. -/
def goOn (s : State) (ok : Bool) (next : RunAt) : State := { s with run := if ok then next else .request }

/-- mirrors catkit2/testbed/testbed.py:295-367 -/
def runStep (s : State) (ok : Bool) (time : UInt64) : Option State :=
  match s.run with
  | .setUp => some (s.goOn ok .startHeartbeats)
  | .startHeartbeats => some ({ s with heartbeats := .test }.goOn ok .startServer)
  | .startServer => some (s.goOn ok .startMonitor)
  | .startMonitor => some ({ s with monitor := .running }.goOn ok .startServices)
  | .startServices => some (s.goOn ok .wait)
  | .wait => some (s.goOn ok (if s.shutdown_requested then .request else .wait))
  | .request => some (if ok then { s with shutdown_requested := true, run := .shutDown } else { s with run := .aborted })
  | .shutDown => some { s with run := .flag }  -- what it raises goes on after the inner block
  | .flag => some (if ok then { s with shutdown_flag := true, run := .joinHeartbeats } else { s with run := .aborted })
  | .joinHeartbeats =>
    if !ok then some { s with run := .aborted }
    else if s.heartbeats = .unstarted ∨ s.heartbeats = .ended then some { s with run := .joinMonitor }
    else none
  | .joinMonitor =>
    if !ok then some { s with run := .aborted }
    else if s.monitor = .unstarted ∨ s.monitor = .ended then some { s with run := .zero }
    else none
  | .zero =>
    some (if ok then { s with heartbeat_stream := s.heartbeat_stream ++ [⟨0, time⟩], run := .tearDown }
    else { s with run := .aborted })
  | .tearDown => some { s with run := if ok then .ended else .aborted }
  | .ended | .aborted => none

/-- mirrors catkit2/testbed/testbed.py:369-374 -/
def heartbeatsStep (s : State) (time : UInt64) : Option State :=
  match s.heartbeats with
  | .test => some { s with heartbeats := if s.shutdown_flag then .ended else .sleep }
  | .sleep => some { s with heartbeats := .submit time }
  | .submit timestamp =>
    some { s with heartbeat_stream := s.heartbeat_stream ++ [⟨timestamp, time⟩], heartbeats := .test }
  | .unstarted | .ended => none

def step (s : State) : Step → Option State
  | .run ok time => s.runStep ok time
  | .heartbeats time => s.heartbeatsStep time
  | .monitorEnds => if s.monitor = .running then some { s with monitor := .ended } else none
  | .onShutDown => some { s with shutdown_requested := true }

end State

open State

def testbedRun : LTS State Step := .ofFn (· = .new) step

/-! ## The last heartbeat -/

/-- No heartbeat comes any more. -/
def HeartbeatsAt.Gone : HeartbeatsAt → Prop
  | .unstarted | .ended => True
  | _ => False

/-- The last heartbeat is zero, and no thread is left that submits another. -/
structure Zeroed (s : State) : Prop where
  run : s.run = .tearDown ∨ s.run = .ended ∨ s.run = .aborted
  gone : s.heartbeats.Gone
  monitor : s.monitor ≠ .running
  last : ∃ beat, s.heartbeat_stream.getLast? = some beat ∧ beat.timestamp = 0

/-- What is gone where `run` is. -/
def Joined (s : State) : RunAt → Prop
  | .joinMonitor => s.heartbeats.Gone
  | .zero => s.heartbeats.Gone ∧ s.monitor ≠ .running
  | .tearDown | .ended => Zeroed s
  | _ => True

variable {s s' : State}

/-- A thread that takes a step is not gone. -/
theorem heartbeatsStep_gone {time : UInt64} (hs : s.heartbeatsStep time = some s') : ¬ s.heartbeats.Gone := by
  unfold heartbeatsStep at hs
  intro hgone
  split at hs <;> rename_i hat <;> rw [hat] at hgone
  · exact hgone
  · exact hgone
  · exact hgone
  · cases hs
  · cases hs

theorem Zeroed.step {l : Step} (h : Zeroed s) (hs : s.step l = some s') : Zeroed s' := by
  cases l with
  | run ok time =>
    have hrun := h.run
    simp only [State.step, runStep] at hs
    obtain hat | hat | hat := hrun <;> rw [hat] at hs <;> cases hs
    refine ⟨?_, h.gone, h.monitor, h.last⟩
    cases ok
    · exact .inr (.inr rfl)
    · exact .inr (.inl rfl)
  | heartbeats time => exact absurd h.gone (heartbeatsStep_gone hs)
  | monitorEnds =>
    simp only [State.step] at hs
    split at hs
    · exact absurd ‹_› h.monitor
    · cases hs
  | onShutDown =>
    cases hs
    exact ⟨h.run, h.gone, h.monitor, h.last⟩

theorem gone_of_joinable (h : s.heartbeats = .unstarted ∨ s.heartbeats = .ended) : s.heartbeats.Gone := by
  obtain h | h := h <;> rw [h] <;> trivial

theorem joined_runStep {ok : Bool} {time : UInt64} (h : Joined s s.run) (hs : s.runStep ok time = some s') :
    Joined s' s'.run := by
  unfold runStep at hs
  split at hs <;> rename_i hat <;> rw [hat] at h
  case h_10 =>
    split at hs
    · cases hs; trivial
    · split at hs <;> cases hs
      exact gone_of_joinable ‹_›
  case h_11 =>
    split at hs
    · cases hs; trivial
    · split at hs <;> cases hs
      rename_i hmonitor
      exact ⟨h, by intro hrunning; obtain h' | h' := hmonitor <;> rw [hrunning] at h' <;> cases h'⟩
  case h_12 =>
    cases ok <;> cases hs
    · trivial
    · exact ⟨.inl rfl, h.1, h.2, _, List.getLast?_concat, rfl⟩
  case h_13 =>
    have hz := Zeroed.step (l := .run ok time) h (by simp only [State.step, runStep, hat]; exact hs)
    cases hs
    cases ok
    · trivial
    · exact hz
  case h_6 =>
    cases ok <;> cases hs
    · trivial
    · unfold goOn
      cases s.shutdown_requested <;> trivial
  all_goals cases ok <;> cases hs <;> trivial

/-- What is gone stays so while another thread goes on. -/
theorem Joined.keeps {pc : RunAt} (h : Joined s pc) (hrun : s'.run = s.run) (hheartbeats : s'.heartbeats = s.heartbeats)
    (hmonitor : s.monitor ≠ .running → s'.monitor ≠ .running) (hstream : s'.heartbeat_stream = s.heartbeat_stream) :
    Joined s' pc := by
  unfold Joined at h ⊢
  split at h
  · exact hheartbeats ▸ h
  · exact ⟨hheartbeats ▸ h.1, hmonitor h.2⟩
  · exact ⟨hrun ▸ h.run, hheartbeats ▸ h.gone, hmonitor h.monitor, hstream ▸ h.last⟩
  · exact ⟨hrun ▸ h.run, hheartbeats ▸ h.gone, hmonitor h.monitor, hstream ▸ h.last⟩
  · trivial

theorem joined_step {l : Step} (h : Joined s s.run) (hs : s.step l = some s') : Joined s' s'.run := by
  cases l with
  | run ok time => exact joined_runStep h hs
  | heartbeats time =>
    have hgone : ¬ s.heartbeats.Gone := heartbeatsStep_gone hs
    have hrun : s'.run = s.run := by
      simp only [State.step, heartbeatsStep] at hs
      split at hs <;> cases hs <;> rfl
    rw [hrun]
    unfold Joined at h ⊢
    split at h
    · exact absurd h hgone
    · exact absurd h.1 hgone
    · exact absurd h.gone hgone
    · exact absurd h.gone hgone
    · trivial
  | monitorEnds =>
    simp only [State.step] at hs
    split at hs <;> cases hs
    exact h.keeps rfl rfl (fun _ hrunning => by cases hrunning) rfl
  | onShutDown =>
    cases hs
    exact h.keeps rfl rfl id rfl

theorem joined_reachable (h : testbedRun.Reachable s) : Joined s s.run := by
  have hind : testbedRun.Inductive fun s => Joined s s.run :=
    ⟨fun s hs => by rw [show s = .new from hs]; trivial, fun _ _ _ hi hs => joined_step hi hs⟩
  exact hind.reachable s h

/-- When `run` ends, by whatever way through its body and its services' shutdown, the newest
heartbeat is zero and none comes after it, unless Ctrl+C comes in a `finally` block. -/
theorem zeroed_of_ended (h : testbedRun.Reachable s) (hended : s.run = .ended) : Zeroed s := by
  have hj := joined_reachable h
  rw [hended] at hj
  exact hj

end Catkit2.L4.TestbedRun
