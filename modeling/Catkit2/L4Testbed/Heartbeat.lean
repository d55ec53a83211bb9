import Catkit2.L4Testbed.Launch

/-!
# The registered heartbeat (testbed.py Testbed.monitor_services, on_register_service)

One service with all its processes, launched by `start_service` or started by
hand, and the monitor thread. Each process makes a heartbeat stream of its own
in its constructor, empty, and puts out a first frame before it writes
`RUNNING`. The service reference holds the stream of the process that
registered last; what it held before is replaced while the newest state is
still that of another process.

The monitor is the one of `Monitored`, on the view of this system that it has:
the newest state, the process that is recorded, the stream that is registered.

* `read_finds_heartbeat`: wherever the monitor reads the heartbeat there is a
  frame, where streams are replaced, and `RUNNING` and `UNRESPONSIVE` written,
  at the right time.
* `fed_of_opened`: a process that is opened has a frame in its own stream.
* `monitor_dies`: a service that is started again by hand ends the monitor.
-/
namespace Catkit2.L4

/-- `heartbeat` is the newest frame of its heartbeat stream. -/
structure WatchedProcess extends ServiceProcess where
  heartbeat : Option Nat

/-- `registered` is the place of the process whose stream is
`service.heartbeat`. `registering` is the one whose registration the server is
at: its `process_id` is recorded, its stream is not opened. -/
structure Watched where
  state : ServiceState
  process_id : Option Nat
  registered : Option Nat
  processes : List WatchedProcess
  start : Thread → Option StartPc
  registering : Option Nat
  monitor : MonitorPc

inductive WatchedStep where
  | start (th : Thread) (o : Outcome) (pid : Nat)
  /-- From the command line. -/
  | byHand (pid : Nat)
  | register (n : Nat)
  | openHeartbeat
  | update (n : Nat)
  | heartbeat (n : Nat) (time_stamp : Nat)
  | finish (n : Nat) (state : ServiceState)
  | zero (n : Nat)
  | exit (n : Nat)
  | reap (n : Nat)
  | monitor (time_stamp : Nat)

namespace Watched

/-! ## The testbed -/

def starting (s : Watched) (th : Thread) (pc : Option StartPc) : Watched :=
  { s with start := Function.update s.start th pc }

def push (s : Watched) (pid : Nat) : Watched :=
  { s with processes := s.processes ++ [⟨⟨pid, .launched, .alive⟩, none⟩] }

/-- What `start_service` does to this service, on either thread.
mirrors catkit2/testbed/testbed.py:603-667 -/
def startStep (s : Watched) (th : Thread) (o : Outcome) (pid : Nat) : Option Watched :=
  match s.start th with
  | none => if th = .server ∧ s.registering ≠ none then none else some (s.starting th (some .testState))
  | some .testState => some (s.starting th (if startable s.state then some .create else none))
  | some .create =>
    match o with
    | .ok => some ((s.push pid).starting th (some (.writeState s.processes.length)))
    | .raise => some (s.starting th none)
  | some (.writeState n) =>
    some ({ s with state := .INITIALIZING }.starting th (some (.writeProcessId n)))
  | some (.writeProcessId n) =>
    some ({ s with process_id := (s.processes[n]?).map fun p : WatchedProcess => p.pid }.starting th none)
  | some _ => none

/-- The stream that is registered, with its newest frame. -/
def heartbeat (s : Watched) : Option (Option Nat) :=
  s.registered.map fun n => (s.processes[n]?).bind (·.heartbeat)

/-- What the monitor sees. -/
def view (s : Watched) : Monitored where
  state := s.state
  process_id := s.process_id
  heartbeat := s.heartbeat
  process := (s.processes.find? fun p => some p.pid = s.process_id ∧ p.status ≠ .gone).map
    (·.toServiceProcess)
  terminal := none
  monitor := s.monitor

/-- mirrors catkit2/testbed/testbed.py:376-413 -/
def monitorStep (difference : Nat → Nat → Int) (s : Watched) (time_stamp : Nat) : Option Watched :=
  (Monitored.monitorStep difference s.view time_stamp).map fun m =>
    { s with state := m.state, process_id := m.process_id, monitor := m.monitor }

/-! ## The processes -/

def acting (s : Watched) (n : Nat) : Option WatchedProcess :=
  (s.processes[n]?).filter (·.status = .alive)

def replace (s : Watched) (n : Nat) (p : WatchedProcess) : Watched :=
  { s with processes := s.processes.set n p }

/-- A registration is served by the server thread, in two writes.
mirrors catkit2/testbed/testbed.py:550-570 -/
def step (difference : Nat → Nat → Int) (s : Watched) : WatchedStep → Option Watched
  | .start th o pid => s.startStep th o pid
  | .byHand pid => some (s.push pid)
  | .register n =>
    match s.acting n with
    | some p =>
      if p.phase = .launched ∧ s.start .server = none ∧ s.registering = none then
        some { s with process_id := some p.pid, registering := some n }
      else none
    | none => none
  | .openHeartbeat =>
    match s.registering with
    | some n =>
      match s.processes[n]? with
      | some p =>
        some { s.replace n { p with phase := .registered } with registered := some n, registering := none }
      | none => none
    | none => none
  | .update n =>
    match s.acting n with
    | some p => p.phase.update.map fun x =>
      { s.replace n { p with phase := x.2 } with state := x.1 }
    | none => none
  | .heartbeat n time_stamp =>
    match s.acting n with
    | some p => p.phase.heartbeat.map fun phase =>
      s.replace n { p with phase := phase, heartbeat := some time_stamp }
    | none => none
  | .finish n state =>
    match s.acting n with
    | some p => (p.phase.finish state).map fun phase =>
      { s.replace n { p with phase := phase } with state := state }
    | none => none
  | .zero n =>
    match s.acting n with
    | some p =>
      if p.phase = .closed then some (s.replace n { p with phase := .done, heartbeat := some 0 }) else none
    | none => none
  | .exit n => (s.acting n).map fun p => s.replace n { p with status := .exited }
  | .reap n =>
    match s.processes[n]? with
    | some p => if p.status = .exited then some (s.replace n { p with status := .gone }) else none
    | none => none
  | .monitor time_stamp => monitorStep difference s time_stamp

/-- A service that was never started. -/
def init (s : Watched) : Prop :=
  s.state = .CLOSED ∧ s.process_id = none ∧ s.registered = none ∧ s.processes = [] ∧
    (∀ th, s.start th = none) ∧ s.registering = none ∧ s.monitor = .readState

end Watched

def watched (difference : Nat → Nat → Int) : LTS Watched WatchedStep :=
  .ofFn Watched.init (Watched.step difference)

/-! ## When there is a heartbeat to read -/

/-- The states for which the monitor reads the heartbeat. -/
def lively (s : ServiceState) : Bool := s = .RUNNING || s = .UNRESPONSIVE

/-- The next step of the monitor reads the heartbeat. -/
def MonitorPc.reads : MonitorPc → Bool
  | .readHeartbeat | .readHeartbeatAgain => true
  | _ => false

/-- From the first heartbeat on. -/
def opened : ServicePhase → Bool
  | .opened | .running | .closing | .closed => true
  | _ => false

/-- A process has put out a heartbeat when it is opened, and none before it is
registered. -/
structure WatchedProcess.Consistent (p : WatchedProcess) : Prop where
  opened : opened p.phase = true → p.heartbeat ≠ none
  launched : p.phase = .launched → p.heartbeat = none

namespace Watched

/-- The stream that is registered exists, and has a frame. -/
def Fed (s : Watched) : Prop := ∃ heartbeat_time, s.heartbeat = some (some heartbeat_time)

/-- A stream is replaced by an empty one only while the newest state does not
have the monitor read it, and the monitor is not about to. `RUNNING` and
`UNRESPONSIVE` are written only while the registered stream has a frame. -/
def Orderly (s : Watched) : WatchedStep → Prop
  | .openHeartbeat => lively s.state = false ∧ s.monitor.reads = false
  | .update n => ∀ p, s.acting n = some p → p.phase = .opened → s.Fed
  | .monitor _ => ∀ w, s.monitor.writes = some w → lively w = true → s.Fed
  | _ => True

/-- Where the monitor reads the heartbeat, or the newest state will have it
read, there is a frame. -/
structure Beating (s : Watched) : Prop where
  state : lively s.state = true → s.Fed
  reading : s.monitor.reads = true → s.Fed
  alive : s.monitor ≠ .dead

variable {difference : Nat → Nat → Int} {s s' : Watched}

theorem fed_iff : s.Fed ↔ ∃ n p time_stamp, s.registered = some n ∧ s.processes[n]? = some p ∧
    p.heartbeat = some time_stamp := by
  simp only [Fed, heartbeat, Option.map_eq_some_iff, Option.bind_eq_some_iff]
  constructor
  · rintro ⟨b, n, hn, p, hp, hb⟩; exact ⟨n, p, b, hn, hp, hb⟩
  · rintro ⟨n, p, b, hn, hp, hb⟩; exact ⟨b, n, hn, p, hp, hb⟩

theorem Fed.push (h : s.Fed) (pid : Nat) : (s.push pid).Fed := by
  obtain ⟨n, p, b, hn, hp, hb⟩ := fed_iff.mp h
  refine fed_iff.mpr ⟨n, p, b, hn, ?_, hb⟩
  exact List.getElem?_append_left (List.getElem?_eq_some_iff.mp hp).1 ▸ hp

theorem processes_of_acting {n : Nat} {p : WatchedProcess} (h : s.acting n = some p) :
    s.processes[n]? = some p := Option.eq_some_of_filter_eq_some h

/-- The state that a process writes before its terminal state. -/
theorem lively_update {phase : ServicePhase} {x : ServiceState × ServicePhase}
    (h : phase.update = some x) (hl : lively x.1 = true) : phase = .opened := by
  cases phase <;> cases h <;> first | rfl | cases hl

theorem lively_of_startable {st : ServiceState} (h : startable st = true) : lively st = false := by
  cases st <;> first | rfl | cases h

theorem opened_of_update {phase : ServicePhase} {x : ServiceState × ServicePhase}
    (h : phase.update = some x) (ho : opened x.2 = true) : opened phase = true := by
  cases phase <;> cases h <;> first | rfl | cases ho

theorem opened_of_finish {phase next : ServicePhase} {state : ServiceState}
    (h : phase.finish state = some next) (ho : opened next = true) : opened phase = true := by
  unfold ServicePhase.finish at h
  split at h <;> cases h <;> first | rfl | cases ho

theorem ne_launched_of_update {phase : ServicePhase} {x : ServiceState × ServicePhase}
    (h : phase.update = some x) : phase ≠ .launched ∧ x.2 ≠ .launched := by
  cases phase <;> cases h <;> simp

theorem ne_launched_of_heartbeat {phase next : ServicePhase} (h : phase.heartbeat = some next) :
    phase ≠ .launched ∧ next ≠ .launched := by
  cases phase <;> cases h <;> simp

theorem ne_launched_of_finish {phase next : ServicePhase} {state : ServiceState}
    (h : phase.finish state = some next) : phase ≠ .launched ∧ next ≠ .launched := by
  unfold ServicePhase.finish at h
  split at h <;> cases h <;> simp

/-- The steps of the service processes, and of the system with them. -/
def ofProcess : WatchedStep → Bool
  | .update _ | .heartbeat _ _ | .finish _ _ | .zero _ | .exit _ | .reap _ => true
  | _ => false

/-- The process `p` at place `n` becomes `q`: it keeps its last heartbeat or
has a new one. The one state it writes for which the monitor reads the
heartbeat is `RUNNING`. -/
structure Acts (s s' : Watched) (l : WatchedStep) (n : Nat) (p q : WatchedProcess) : Prop where
  at_place : s.processes[n]? = some p
  processes : s'.processes = s.processes.set n q
  testbed : s'.registered = s.registered ∧ s'.monitor = s.monitor ∧ s'.registering = s.registering
  heartbeat : q.heartbeat = p.heartbeat ∨ q.heartbeat ≠ none
  consistent : p.Consistent → q.Consistent
  launched : p.phase = .launched → q.phase = .launched
  state : lively s'.state = true → lively s.state = true ∨
    l = .update n ∧ s.acting n = some p ∧ p.phase = .opened

/-- **What a process can do.** -/
theorem process_cases {l : WatchedStep} (hl : ofProcess l = true)
    (hst : step difference s l = some s') : ∃ n p q, Acts s s' l n p q := by
  cases l with
  | update n =>
    simp only [step] at hst
    split at hst
    · rename_i p hp
      obtain ⟨x, hx, rfl⟩ := Option.map_eq_some_iff.mp hst
      obtain ⟨hne, hne'⟩ := ne_launched_of_update hx
      exact ⟨n, p, _, processes_of_acting hp, rfl, ⟨rfl, rfl, rfl⟩, .inl rfl,
        fun hc => ⟨fun ho => hc.opened (opened_of_update hx ho), fun hl => absurd hl hne'⟩,
        fun hl => absurd hl hne, fun hl => .inr ⟨rfl, hp, lively_update hx hl⟩⟩
    · cases hst
  | heartbeat n time_stamp =>
    simp only [step] at hst
    split at hst
    · rename_i p hp
      obtain ⟨phase, hph, rfl⟩ := Option.map_eq_some_iff.mp hst
      obtain ⟨hne, hne'⟩ := ne_launched_of_heartbeat hph
      exact ⟨n, p, _, processes_of_acting hp, rfl, ⟨rfl, rfl, rfl⟩, .inr (by simp),
        fun _ => ⟨fun _ => by simp, fun hl => absurd hl hne'⟩, fun hl => absurd hl hne, .inl⟩
    · cases hst
  | finish n state =>
    simp only [step] at hst
    split at hst
    · rename_i p hp
      obtain ⟨phase, hph, rfl⟩ := Option.map_eq_some_iff.mp hst
      obtain ⟨hne, hne'⟩ := ne_launched_of_finish hph
      refine ⟨n, p, _, processes_of_acting hp, rfl, ⟨rfl, rfl, rfl⟩, .inl rfl,
        fun hc => ⟨fun ho => hc.opened (opened_of_finish hph ho), fun hl => absurd hl hne'⟩,
        fun hl => absurd hl hne, fun hl => ?_⟩
      have hl' : lively state = true := hl
      rw [lively_of_startable (Monitored.startable_of_finish hph).1] at hl'
      cases hl'
    · cases hst
  | zero n =>
    simp only [step] at hst
    split at hst
    · rename_i p hp
      split at hst
      · rename_i hph
        cases hst
        exact ⟨n, p, _, processes_of_acting hp, rfl, ⟨rfl, rfl, rfl⟩, .inr (by simp),
          fun _ => ⟨fun _ => by simp, fun hl => by cases hl⟩, fun hl => (by rw [hph] at hl; cases hl), .inl⟩
      · cases hst
    · cases hst
  | exit n =>
    simp only [step, Option.map_eq_some_iff] at hst
    obtain ⟨p, hp, rfl⟩ := hst
    exact ⟨n, p, _, processes_of_acting hp, rfl, ⟨rfl, rfl, rfl⟩, .inl rfl,
      fun hc => ⟨hc.opened, hc.launched⟩, fun hl => hl, .inl⟩
  | reap n =>
    simp only [step] at hst
    split at hst
    · rename_i p hp
      split at hst
      · cases hst
        exact ⟨n, p, _, hp, rfl, ⟨rfl, rfl, rfl⟩, .inl rfl,
          fun hc => ⟨hc.opened, hc.launched⟩, fun hl => hl, .inl⟩
      · cases hst
    · cases hst
  | start th o pid => cases hl
  | byHand pid => cases hl
  | register n => cases hl
  | openHeartbeat => cases hl
  | monitor time_stamp => cases hl

/-- A process that keeps its heartbeats, or has a new one. -/
theorem Fed.acts (h : s.Fed) {l : WatchedStep} {n : Nat} {p q : WatchedProcess} (ha : Acts s s' l n p q) :
    s'.Fed := by
  obtain ⟨m, p', b, hm, hp', hb⟩ := fed_iff.mp h
  have hm' : s'.registered = some m := ha.testbed.1.trans hm
  by_cases hnm : n = m
  · subst hnm
    have hlt := (List.getElem?_eq_some_iff.mp hp').1
    have hset : s'.processes[n]? = some q := by simp [ha.processes, hlt]
    rw [ha.at_place] at hp'
    cases hp'
    rcases ha.heartbeat with hq | hq
    · exact fed_iff.mpr ⟨n, q, b, hm', hset, hq.trans hb⟩
    · obtain ⟨b', hb'⟩ := Option.ne_none_iff_exists'.mp hq
      exact fed_iff.mpr ⟨n, q, b', hm', hset, hb'⟩
  · refine fed_iff.mpr ⟨m, p', b, hm', ?_, hb⟩
    rw [ha.processes, List.getElem?_set_ne hnm]
    exact hp'

/-- Steps of the surroundings of the monitor. -/
theorem Beating.congr (h : Beating s) (hfed : s.Fed → s'.Fed) (hm : s'.monitor = s.monitor)
    (hstate : lively s'.state = true → lively s.state = true ∨ s'.Fed) : Beating s' := by
  refine ⟨fun hl => ?_, fun hr => ?_, ?_⟩
  · rcases hstate hl with hl' | hf
    · exact hfed (h.state hl')
    · exact hf
  · rw [hm] at hr; exact hfed (h.reading hr)
  · rw [hm]; exact h.alive

/-- **One step of the monitor.** It reads where it has seen `RUNNING` or
`UNRESPONSIVE`, and writes them where there is a frame. -/
theorem beating_monitorStep (h : Beating s) {time_stamp : Nat}
    (hg : ∀ w, s.monitor.writes = some w → lively w = true → s.Fed)
    (hst : monitorStep difference s time_stamp = some s') : Beating s' := by
  obtain ⟨m, hm, rfl⟩ := Option.map_eq_some_iff.mp hst
  -- The steps that write no state: a read is next only in a lively state.
  have hkeeps : m.state = s.state → (m.monitor.reads = true → lively s.state = true) →
      m.monitor ≠ .dead →
      Beating { s with state := m.state, process_id := m.process_id, monitor := m.monitor } := by
    intro hs hr hd
    exact ⟨fun hl => h.state (hs ▸ hl), fun hr' => h.state (hr hr'), hd⟩
  cases hpc : s.monitor with
  | readState =>
    simp only [Monitored.monitorStep, view, hpc] at hm
    cases hm
    by_cases hc : startable s.state = true
    · exact hkeeps rfl (fun hr => by simp [hc, MonitorPc.reads] at hr) (by simp [hc])
    · exact hkeeps rfl (fun hr => by simp [hc, MonitorPc.reads] at hr) (by simp [hc])
  | readProcess =>
    simp only [Monitored.monitorStep, view, hpc] at hm
    split at hm <;> cases hm <;> exact hkeeps rfl (fun hr => by cases hr) (by simp)
  | writeCrashed =>
    simp only [Monitored.monitorStep, view, hpc] at hm
    cases hm
    refine ⟨fun hl => ?_, fun hr => ?_, by simp⟩
    · cases hl
    · cases hr
  | readRunning =>
    simp only [Monitored.monitorStep, view, hpc] at hm
    cases hm
    by_cases hrun : s.state = .RUNNING
    · exact hkeeps rfl (fun _ => by simp [lively, hrun]) (by simp [hrun])
    · exact hkeeps rfl (fun hr => by simp [hrun, MonitorPc.reads] at hr) (by simp [hrun])
  | readHeartbeat =>
    obtain ⟨b, hb⟩ := h.reading (by rw [hpc]; rfl)
    simp only [Monitored.monitorStep, view, hpc, hb] at hm
    cases hm
    exact hkeeps rfl (fun hr => by cases hr) (by simp)
  | compareLate b =>
    simp only [Monitored.monitorStep, view, hpc] at hm
    cases hm
    by_cases hc : difference time_stamp b > SERVICE_LIVELINESS
    · exact hkeeps rfl (fun hr => by simp [hc, MonitorPc.reads] at hr) (by simp [hc])
    · exact hkeeps rfl (fun hr => by simp [hc, MonitorPc.reads] at hr) (by simp [hc])
  | writeUnresponsive =>
    simp only [Monitored.monitorStep, view, hpc] at hm
    cases hm
    have hf : s.Fed := hg .UNRESPONSIVE (by rw [hpc]; rfl) rfl
    exact ⟨fun _ => hf, fun _ => hf, by simp⟩
  | readUnresponsive =>
    simp only [Monitored.monitorStep, view, hpc] at hm
    cases hm
    by_cases hun : s.state = .UNRESPONSIVE
    · exact hkeeps rfl (fun _ => by simp [lively, hun]) (by simp [hun])
    · exact hkeeps rfl (fun hr => by simp [hun, MonitorPc.reads] at hr) (by simp [hun])
  | readHeartbeatAgain =>
    obtain ⟨b, hb⟩ := h.reading (by rw [hpc]; rfl)
    simp only [Monitored.monitorStep, view, hpc, hb] at hm
    cases hm
    exact hkeeps rfl (fun hr => by cases hr) (by simp)
  | compareFresh b =>
    simp only [Monitored.monitorStep, view, hpc] at hm
    cases hm
    by_cases hc : difference time_stamp b < SERVICE_LIVELINESS
    · exact hkeeps rfl (fun hr => by simp [hc, MonitorPc.reads] at hr) (by simp [hc])
    · exact hkeeps rfl (fun hr => by simp [hc, MonitorPc.reads] at hr) (by simp [hc])
  | writeRunning =>
    simp only [Monitored.monitorStep, view, hpc] at hm
    cases hm
    have hf : s.Fed := hg .RUNNING (by rw [hpc]; rfl) rfl
    exact ⟨fun _ => hf, fun _ => hf, by simp⟩
  | dead => exact absurd hpc h.alive

theorem fed_of_same (hr : s'.registered = s.registered) (hp : s'.processes = s.processes) (h : s.Fed) :
    s'.Fed := by
  unfold Fed heartbeat
  rw [hr, hp]
  exact h

/-- What a step of a start can do: write `INITIALIZING`, record the process,
or launch it. The rest is left alone. -/
theorem startStep_cases {th : Thread} {o : Outcome} {pid : Nat} (hst : s.startStep th o pid = some s') :
    s'.registered = s.registered ∧ s'.monitor = s.monitor ∧ s'.registering = s.registering ∧
      (s'.processes = s.processes ∨ s'.processes = (s.push pid).processes) ∧
      (s'.state = s.state ∨ s'.state = .INITIALIZING) := by
  unfold startStep at hst
  split at hst
  · split at hst
    · cases hst
    · cases hst; exact ⟨rfl, rfl, rfl, .inl rfl, .inl rfl⟩
  · cases hst; exact ⟨rfl, rfl, rfl, .inl rfl, .inl rfl⟩
  · split at hst
    · cases hst; exact ⟨rfl, rfl, rfl, .inr rfl, .inl rfl⟩
    · cases hst; exact ⟨rfl, rfl, rfl, .inl rfl, .inl rfl⟩
  · cases hst; exact ⟨rfl, rfl, rfl, .inl rfl, .inr rfl⟩
  · cases hst; exact ⟨rfl, rfl, rfl, .inl rfl, .inl rfl⟩
  · cases hst

theorem beating_startStep (h : Beating s) {th : Thread} {o : Outcome} {pid : Nat}
    (hst : s.startStep th o pid = some s') : Beating s' := by
  obtain ⟨hr, hm, -, hp, hs⟩ := startStep_cases hst
  refine h.congr (fun hf => ?_) hm fun hl => ?_
  · rcases hp with hp | hp
    · exact fed_of_same hr hp hf
    · exact fed_of_same (s := s.push pid) hr hp (hf.push pid)
  · rcases hs with hs | hs
    · rw [hs] at hl; exact .inl hl
    · rw [hs] at hl; cases hl

theorem beating_inductive (difference : Nat → Nat → Int) :
    ((watched difference).restrict Orderly).Inductive Beating := by
  refine ⟨fun s h => ?_, fun s l s' h hst => ?_⟩
  · obtain ⟨hs, -, -, -, -, -, hm⟩ := h
    refine ⟨fun hl => ?_, fun hr => ?_, by simp [hm]⟩
    · rw [hs] at hl; cases hl
    · rw [hm] at hr; cases hr
  · obtain ⟨hg, hst⟩ := hst
    simp only [watched, LTS.ofFn] at hst
    cases l with
    | start th o pid => exact beating_startStep h hst
    | byHand pid => cases hst; exact h.congr (fun hf => hf.push pid) rfl .inl
    | register n =>
      simp only [step] at hst
      split at hst
      · split at hst
        · cases hst; exact h.congr (fed_of_same rfl rfl) rfl .inl
        · cases hst
      · cases hst
    | openHeartbeat =>
      simp only [step] at hst
      split at hst
      · split at hst
        · cases hst
          -- The new stream is empty, but nothing has it read yet.
          obtain ⟨hstate, hreads⟩ := hg
          refine ⟨fun hl => ?_, fun hr => ?_, h.alive⟩
          · rw [show lively s.state = true from hl] at hstate
            cases hstate
          · rw [show s.monitor.reads = true from hr] at hreads
            cases hreads
        · cases hst
      · cases hst
    | heartbeat n time_stamp | finish n state | zero n | exit n | reap n =>
      obtain ⟨n, p, q, ha⟩ := process_cases rfl hst
      refine h.congr (fun hf => hf.acts ha) ha.testbed.2.1 fun hl => ?_
      rcases ha.state hl with hl | ⟨he, -⟩
      · exact .inl hl
      · cases he
    | update n =>
      obtain ⟨n', p, q, ha⟩ := process_cases rfl hst
      refine h.congr (fun hf => hf.acts ha) ha.testbed.2.1 fun hl => ?_
      rcases ha.state hl with hl | ⟨he, hp, hph⟩
      · exact .inl hl
      · cases he
        exact .inr ((hg p hp hph).acts ha)
    | monitor time_stamp => exact beating_monitorStep h hg hst

/-! ## The initial heartbeat -/

/-- The processes are consistent, and the one that the server is registering
waits for its reply. -/
structure Initial (s : Watched) : Prop where
  processes : ∀ (n : Nat) (p : WatchedProcess), s.processes[n]? = some p → p.Consistent
  registering : ∀ n, s.registering = some n → ∃ p, s.processes[n]? = some p ∧ p.phase = .launched

theorem consistent_set (h : Initial s) {n : Nat} {q : WatchedProcess} (hq : q.Consistent) :
    ∀ (m : Nat) (p : WatchedProcess), (s.processes.set n q)[m]? = some p → p.Consistent := by
  intro m p hm
  rw [List.getElem?_set] at hm
  split at hm
  · split at hm
    · cases hm; exact hq
    · cases hm
  · exact h.processes m p hm

theorem Initial.push (h : Initial s) (pid : Nat) : Initial (s.push pid) := by
  refine ⟨fun n p hp => ?_, fun n hn => ?_⟩
  · simp only [Watched.push, List.getElem?_append] at hp
    split at hp
    · exact h.processes n p hp
    · rw [List.getElem?_singleton] at hp
      split at hp
      · cases hp
        exact ⟨fun ho => (by cases ho), fun _ => rfl⟩
      · cases hp
  · obtain ⟨p, hp, hph⟩ := h.registering n hn
    exact ⟨p, List.getElem?_append_left (List.getElem?_eq_some_iff.mp hp).1 ▸ hp, hph⟩

theorem Initial.congr (h : Initial s) (hp : s'.processes = s.processes)
    (hr : s'.registering = s.registering) : Initial s' := by
  refine ⟨?_, ?_⟩
  · rw [hp]; exact h.processes
  · rw [hp, hr]; exact h.registering

theorem Initial.acts (h : Initial s) {l : WatchedStep} {n : Nat} {p q : WatchedProcess}
    (ha : Acts s s' l n p q) : Initial s' := by
  refine ⟨?_, fun m hm => ?_⟩
  · rw [ha.processes]
    exact consistent_set h (ha.consistent (h.processes n p ha.at_place))
  · rw [ha.testbed.2.2] at hm
    obtain ⟨p', hp', hph⟩ := h.registering m hm
    by_cases hnm : n = m
    · subst hnm
      rw [ha.at_place] at hp'
      cases hp'
      have hlt := (List.getElem?_eq_some_iff.mp ha.at_place).1
      exact ⟨q, by simp [ha.processes, hlt], ha.launched hph⟩
    · exact ⟨p', by rw [ha.processes, List.getElem?_set_ne hnm]; exact hp', hph⟩

theorem initial_inductive (difference : Nat → Nat → Int) : (watched difference).Inductive Initial := by
  refine ⟨fun s h => ?_, fun s l s' h hst => ?_⟩
  · obtain ⟨-, -, -, hp, -, hr, -⟩ := h
    refine ⟨fun n p hn => ?_, fun n hn => ?_⟩
    · rw [hp] at hn; cases hn
    · rw [hr] at hn; cases hn
  · simp only [watched, LTS.ofFn] at hst
    cases l with
    | start th o pid =>
      obtain ⟨-, -, hr, hp | hp, -⟩ := startStep_cases hst
      · exact h.congr hp hr
      · exact (h.push pid).congr hp hr
    | byHand pid => cases hst; exact h.push pid
    | register n =>
      simp only [step] at hst
      split at hst
      · rename_i p hp
        split at hst
        · rename_i hph
          cases hst
          refine ⟨h.processes, fun m hm => ?_⟩
          cases hm
          exact ⟨p, processes_of_acting hp, hph.1⟩
        · cases hst
      · cases hst
    | openHeartbeat =>
      simp only [step] at hst
      split at hst
      · split at hst
        · cases hst
          refine ⟨consistent_set h ⟨fun ho => (by cases ho), fun hl => (by cases hl)⟩, fun m hm => ?_⟩
          cases hm
        · cases hst
      · cases hst
    | update n | heartbeat n time_stamp | finish n state | zero n | exit n | reap n =>
      obtain ⟨n, p, q, ha⟩ := process_cases rfl hst
      exact h.acts ha
    | monitor time_stamp =>
      obtain ⟨m, -, rfl⟩ := Option.map_eq_some_iff.mp hst
      exact h.congr rfl rfl

/-- A step out of order leaves the monitor a heartbeat to read, and none there. -/
theorem unfed_of_not_orderly (h : Initial s) {l : WatchedStep} (hst : step difference s l = some s')
    (hl : ¬ Orderly s l) : (lively s'.state = true ∨ s'.monitor.reads = true) ∧ ¬ s'.Fed := by
  cases l with
  | openHeartbeat =>
    simp only [step] at hst
    split at hst
    · rename_i n hn
      split at hst
      · rename_i p hp
        cases hst
        obtain ⟨p', hp', hph⟩ := h.registering n hn
        rw [hp] at hp'
        cases hp'
        have hnone : p.heartbeat = none := (h.processes n p hp).launched hph
        simp only [Orderly, not_and_or, Bool.not_eq_false] at hl
        refine ⟨hl, fun hf => ?_⟩
        obtain ⟨m, q, b, hm, hq, hb⟩ := fed_iff.mp hf
        cases hm
        simp only [Watched.replace, List.getElem?_set, if_true] at hq
        split at hq
        · cases hq
          rw [show p.heartbeat = some b from hb] at hnone
          cases hnone
        · cases hq
      · cases hst
    · cases hst
  | update n =>
    simp only [Orderly, not_forall] at hl
    obtain ⟨p, hp, hph, hfed⟩ := hl
    simp only [step, hp, hph, ServicePhase.update, Option.map_some, Option.some.injEq] at hst
    subst hst
    refine ⟨.inl rfl, fun hf => hfed ?_⟩
    obtain ⟨m, q, b, hm, hq, hb⟩ := fed_iff.mp hf
    simp only [Watched.replace, List.getElem?_set] at hq
    split at hq
    · rename_i hnm
      split at hq
      · cases hq
        exact fed_iff.mpr ⟨m, p, b, hm, hnm ▸ processes_of_acting hp, hb⟩
      · cases hq
    · exact fed_iff.mpr ⟨m, q, b, hm, hq, hb⟩
  | monitor time_stamp =>
    simp only [Orderly, not_forall] at hl
    obtain ⟨w, hw, hlively, hfed⟩ := hl
    obtain ⟨m, hm, rfl⟩ := Option.map_eq_some_iff.mp hst
    have hstate : m.state = w := (Monitored.state_of_writes (s := s.view) hw hm).1
    exact ⟨.inl (by rw [hstate]; exact hlively), hfed⟩
  | start th o pid => exact absurd trivial hl
  | byHand pid => exact absurd trivial hl
  | register n => exact absurd trivial hl
  | heartbeat n time_stamp => exact absurd trivial hl
  | finish n state => exact absurd trivial hl
  | zero n => exact absurd trivial hl
  | exit n => exact absurd trivial hl
  | reap n => exact absurd trivial hl

end Watched

open Watched

/-- A process finds its own heartbeat out when it writes `RUNNING`: it is only
where another process registered after it that the registered stream can be
empty then. -/
theorem fed_of_opened (difference : Nat → Nat → Int) (s : Watched) (h : (watched difference).Reachable s)
    {n : Nat} {p : WatchedProcess} (hr : s.registered = some n) (hp : s.processes[n]? = some p)
    (ho : p.phase = .opened) : s.Fed := by
  have hb := (((initial_inductive difference).reachable s h).processes n p hp).opened (by rw [ho]; rfl)
  obtain ⟨b, hb⟩ := Option.ne_none_iff_exists'.mp hb
  exact fed_iff.mpr ⟨n, p, b, hr, hp, hb⟩

/-- **The monitor finds a heartbeat.** Whatever processes of the service come,
register and crash, wherever the monitor reads the heartbeat the registered
stream exists and has a frame, and the monitor lives on, in every run whose
steps are orderly. The first step that is not leaves the newest state, or the
monitor, asking for a frame that is not there. -/
theorem read_finds_heartbeat (difference : Nat → Nat → Int) :
    (∀ s, ((watched difference).restrict Orderly).Reachable s →
      (s.monitor.reads = true → s.Fed) ∧ s.monitor ≠ .dead) ∧
    ∀ s, (watched difference).Reachable s → ∀ l s', step difference s l = some s' → ¬ Orderly s l →
      (lively s'.state = true ∨ s'.monitor.reads = true) ∧ ¬ s'.Fed := by
  refine ⟨fun s hs => ?_, fun s hs l s' hst hl => ?_⟩
  · have hb := (beating_inductive difference).reachable s hs
    exact ⟨hb.reading, hb.alive⟩
  · exact unfed_of_not_orderly ((initial_inductive difference).reachable s hs) hst hl

/-! ## A service that is started again -/

namespace Watched

instance (s : Watched) : Decidable s.Fed :=
  decidable_of_iff (s.heartbeat.any (·.isSome)) (by
    simp [Fed, Option.any_eq_true, Option.isSome_iff_exists])

instance : ∀ (s : Watched) (l : WatchedStep), Decidable (Orderly s l)
  | s, .openHeartbeat => inferInstanceAs (Decidable (lively s.state = false ∧ s.monitor.reads = false))
  | s, .update n => decidable_of_iff (∀ p ∈ s.acting n, p.phase = .opened → s.Fed) Iff.rfl
  | s, .monitor _ => decidable_of_iff (∀ w ∈ s.monitor.writes, lively w = true → s.Fed) Iff.rfl
  | _, .start _ _ _ | _, .byHand _ | _, .register _ | _, .heartbeat _ _ | _, .finish _ _
  | _, .zero _ | _, .exit _ | _, .reap _ => isTrue trivial

/-- A service that was never started. -/
def closed : Watched := ⟨.CLOSED, none, none, [], fun _ => none, none, .readState⟩

theorem closed_init : closed.init := ⟨rfl, rfl, rfl, rfl, fun _ => rfl, rfl, rfl⟩

/-- Started by the testbed, registered, opened and running. -/
def comesUp : List WatchedStep :=
  List.replicate 5 (.start .main .ok 7) ++
    [.register 0, .openHeartbeat, .update 0, .update 0, .heartbeat 0 1000000000, .update 0]

end Watched

theorem read_finds_heartbeat_running : ∃ s : Watched, s.monitor = .readHeartbeat ∧ s.Fed := by
  obtain ⟨s, hs, hm⟩ : ∃ s, LTS.exec (LTS.guarded Orderly (Watched.step exactly)) closed
      (Watched.comesUp ++ List.replicate 3 (.monitor 2000000000)) = some s ∧
      s.monitor = .readHeartbeat := ⟨_, rfl, by decide⟩
  refine ⟨s, hm, ?_⟩
  exact ((read_finds_heartbeat exactly).1 s (.of_guarded closed_init hs)).1 (by rw [hm]; rfl)

/-- The process is killed, and the service is started from the command line.
It has registered, its heartbeats are yet to come, and the newest state is
still `RUNNING`. -/
theorem monitor_dies : ¬ ∀ difference s, (watched difference).Reachable s →
    (s.monitor.reads = true → s.Fed) ∧ s.monitor ≠ .dead := by
  intro h
  obtain ⟨s, hs, hm⟩ : ∃ s, LTS.exec (Watched.step exactly) closed
      (Watched.comesUp ++ [.exit 0, .byHand 8, .register 1, .openHeartbeat] ++
        List.replicate 4 (.monitor 2000000000)) = some s ∧
      s.monitor = .dead := ⟨_, rfl, by decide⟩
  exact (h _ _ (.of_exec closed_init hs)).2 hm

end Catkit2.L4
