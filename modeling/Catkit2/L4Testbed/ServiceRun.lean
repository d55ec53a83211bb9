import Catkit2.Core.LTS
import Catkit2.L4Testbed.Config

/-!
# A service's run (catkit_core/Service.cpp, Service::Run)

`Run` writes the state of its service at each stage, calls `Open`, `Main` and
`Close`, and meanwhile has two threads, one that looks at the safety of the
testbed and one that sends heartbeats. The scope of `Main` ends with the shutdown
flag set and both threads joined. Clients set the flag at any time.

A step is one access to what the threads share. What the calls do is given
(`Behaviour`), and so is what each check of safety and of the testbed finds.
What a thread throws, which ends the process, is left out.

* `inv_step`: which states are written where, and which threads have ended.
* `clean_end_iff`: the terminal state tells a run without errors from others,
  exactly when it is not `Close` alone that throws.
-/
namespace Catkit2.L4.ServiceRun

inductive Outcome where
  | returns | throws
  deriving DecidableEq

/-- `requires_safety` is `none` where the key is missing. -/
structure Behaviour where
  requires_safety : Option Bool
  Open : Outcome
  Main : Outcome
  Close : Outcome

/-- `safe` is what is found of the safety service.
mirrors catkit_core/Service.cpp:223-267 -/
def Behaviour.IsSafe (b : Behaviour) (safe : Bool) : Bool :=
  match b.requires_safety with
  | some true => safe
  | _ => true

/-- Where `Run` is. `crashed` is its local variable.
mirrors catkit_core/Service.cpp:66-204 -/
inductive RunAt where
  | check
  | preCheck
  | opening
  | opened
  | beat
  | spawnSafety
  | spawnHeartbeat
  | serving
  | main
  | stop (crashed : Bool)
  | joinSafety (crashed : Bool)
  | joinHeartbeat (crashed : Bool)
  | joined (crashed : Bool)
  | closing (crashed : Bool)
  | closed (crashed : Bool)
  | lastBeat
  | returned

/-- mirrors catkit_core/Service.cpp:206-221 -/
inductive SafetyAt where
  | unstarted | test | look | unsafeFound | shutDown | ended

/-- mirrors catkit_core/Service.cpp:274-293 -/
inductive HeartbeatAt where
  | unstarted | test | beat | look | shutDown | ended

/-- `states` are the states that `Run` wrote, `heartbeats` the frames of its
heartbeat stream. -/
structure State where
  run : RunAt
  safety : SafetyAt
  heartbeat : HeartbeatAt
  shouldShutDown : Bool
  failSafe : Bool
  states : List ServiceState
  heartbeats : List UInt64

def State.new : State := ⟨.check, .unstarted, .unstarted, false, false, [], []⟩

inductive Step where
  | run (safe : Bool) (timestamp : UInt64)
  | safety (safe : Bool)
  | heartbeat (alive : Bool) (timestamp : UInt64)
  /-- A client, or the service's own code. -/
  | shutDown

namespace State

/-- `UpdateState`, and on. -/
def write (s : State) (state : ServiceState) (run : RunAt) : State :=
  { s with states := s.states ++ [state], run := run }

@[simp] theorem states_write (s : State) (state : ServiceState) (run : RunAt) :
    (s.write state run).states = s.states ++ [state] := rfl

/-- mirrors catkit_core/Service.cpp:185-199 -/
def terminalState (crashed failSafe : Bool) : ServiceState :=
  if crashed then .CRASHED else if failSafe then .FAIL_SAFE else .CLOSED

variable (b : Behaviour)

def runStep (s : State) (safe : Bool) (timestamp : UInt64) : Option State :=
  match s.run with
  | .check =>
    match b.requires_safety with
    | none => some (s.write .CRASHED .returned)
    | some _ => some { s with run := .preCheck }
  | .preCheck => some (if b.IsSafe safe then s.write .OPENING .opening else s.write .FAIL_SAFE .returned)
  | .opening =>
    match b.Open with
    | .returns => some { s with run := .opened }
    | .throws => some (s.write .CRASHED .returned)
  | .opened => some { s with failSafe := false, run := .beat }
  | .beat => some { s with heartbeats := s.heartbeats ++ [timestamp], run := .spawnSafety }
  | .spawnSafety => some { s with safety := .test, run := .spawnHeartbeat }
  | .spawnHeartbeat => some { s with heartbeat := .test, run := .serving }
  | .serving => some (s.write .RUNNING .main)
  | .main => some { s with run := .stop (b.Main = .throws) }
  | .stop crashed => some { s with shouldShutDown := true, run := .joinSafety crashed }
  | .joinSafety crashed =>
    match s.safety with
    | .ended => some { s with run := .joinHeartbeat crashed }
    | _ => none
  | .joinHeartbeat crashed =>
    match s.heartbeat with
    | .ended => some { s with run := .joined crashed }
    | _ => none
  | .joined crashed => some (s.write .CLOSING (.closing crashed))
  | .closing crashed => some { s with run := .closed crashed }  -- what `Close` throws is logged
  | .closed crashed => some (s.write (terminalState crashed s.failSafe) .lastBeat)
  | .lastBeat => some { s with heartbeats := s.heartbeats ++ [0], run := .returned }
  | .returned => none

def safetyStep (s : State) (safe : Bool) : Option State :=
  match s.safety with
  | .test => some { s with safety := if s.shouldShutDown then .ended else .look }
  | .look => some { s with safety := if b.IsSafe safe then .test else .unsafeFound }
  | .unsafeFound => some { s with failSafe := true, safety := .shutDown }
  | .shutDown => some { s with shouldShutDown := true, safety := .ended }
  | .unstarted | .ended => none

def heartbeatStep (s : State) (alive : Bool) (timestamp : UInt64) : Option State :=
  match s.heartbeat with
  | .test => some { s with heartbeat := if s.shouldShutDown then .ended else .beat }
  | .beat => some { s with heartbeats := s.heartbeats ++ [timestamp], heartbeat := .look }
  | .look => some { s with heartbeat := if alive then .test else .shutDown }
  | .shutDown => some { s with shouldShutDown := true, heartbeat := .ended }
  | .unstarted | .ended => none

def step (s : State) : Step → Option State
  | .run safe timestamp => s.runStep b safe timestamp
  | .safety safe => s.safetyStep b safe
  | .heartbeat alive timestamp => s.heartbeatStep alive timestamp
  | .shutDown => some { s with shouldShutDown := true }

end State

open State

def lts (b : Behaviour) : LTS State Step := .ofFn (· = .new) (step b)

/-! ## What a step leaves alone -/

section

variable {b : Behaviour} {s s' : State}

/-- `Run` starts each of its threads in one step, and does not touch them otherwise. -/
theorem runStep_safety {safe : Bool} {timestamp : UInt64} (hs : s.runStep b safe timestamp = some s')
    (hrun : s.run ≠ .spawnSafety) : s'.safety = s.safety := by
  unfold State.runStep at hs
  split at hs <;> (try split at hs) <;> cases hs
  all_goals first
    | rfl
    | exact absurd ‹_› hrun

theorem runStep_heartbeat {safe : Bool} {timestamp : UInt64} (hs : s.runStep b safe timestamp = some s')
    (hrun : s.run ≠ .spawnHeartbeat) : s'.heartbeat = s.heartbeat := by
  unfold State.runStep at hs
  split at hs <;> (try split at hs) <;> cases hs
  all_goals first
    | rfl
    | exact absurd ‹_› hrun

/-- The flag is never cleared. -/
theorem runStep_shouldShutDown {safe : Bool} {timestamp : UInt64} (hs : s.runStep b safe timestamp = some s')
    (h : s.shouldShutDown = true) : s'.shouldShutDown = true := by
  unfold State.runStep at hs
  split at hs <;> (try split at hs) <;> cases hs
  all_goals first
    | exact h
    | rfl

theorem safetyStep_heartbeat {safe : Bool} (hs : s.safetyStep b safe = some s') :
    s'.heartbeat = s.heartbeat ∧ (s.shouldShutDown = true → s'.shouldShutDown = true) := by
  unfold State.safetyStep at hs
  split at hs <;> cases hs
  all_goals first
    | exact ⟨rfl, id⟩
    | exact ⟨rfl, fun _ => rfl⟩

theorem heartbeatStep_safety {alive : Bool} {timestamp : UInt64} (hs : s.heartbeatStep alive timestamp = some s') :
    s'.safety = s.safety ∧ (s.shouldShutDown = true → s'.shouldShutDown = true) := by
  unfold State.heartbeatStep at hs
  split at hs <;> cases hs
  all_goals first
    | exact ⟨rfl, id⟩
    | exact ⟨rfl, fun _ => rfl⟩

/-- `Run` makes the step, or another thread, which leaves it where it is. -/
theorem step_run_or_thread {l : Step} (hs : s.step b l = some s') :
    (∃ safe timestamp, l = .run safe timestamp ∧ s.runStep b safe timestamp = some s') ∨
      (s'.run = s.run ∧ s'.states = s.states ∧ (s.shouldShutDown = true → s'.shouldShutDown = true)) := by
  cases l with
  | run safe timestamp => exact .inl ⟨safe, timestamp, rfl, hs⟩
  | safety safe =>
    refine .inr ?_
    replace hs : s.safetyStep b safe = some s' := hs
    have hdown := (safetyStep_heartbeat hs).2
    unfold State.safetyStep at hs
    split at hs <;> cases hs <;> exact ⟨rfl, rfl, hdown⟩
  | heartbeat alive timestamp =>
    refine .inr ?_
    replace hs : s.heartbeatStep alive timestamp = some s' := hs
    have hdown := (heartbeatStep_safety hs).2
    unfold State.heartbeatStep at hs
    split at hs <;> cases hs <;> exact ⟨rfl, rfl, hdown⟩
  | shutDown =>
    cases hs
    exact .inr ⟨rfl, rfl, fun _ => rfl⟩

end

/-! ## What the states tell -/

def terminal (s : State) : Option ServiceState :=
  match s.states.getLast? with
  | some .CLOSED => some .CLOSED
  | some .FAIL_SAFE => some .FAIL_SAFE
  | some .CRASHED => some .CRASHED
  | _ => none

def Behaviour.Returns (b : Behaviour) : Prop := b.Open = .returns ∧ b.Main = .returns ∧ b.Close = .returns

/-- In a run that opened the service, the terminal state is that of a run without
errors only if nothing threw, and otherwise it is CRASHED. -/
def CleanEnd (b : Behaviour) (s : State) : Prop :=
  .OPENING ∈ s.states → ∀ state, terminal s = some state →
    (state = .CLOSED ∨ state = .FAIL_SAFE → b.Returns) ∧ (¬ b.Returns → state = .CRASHED)

/-- A run that was running and wrote its terminal state has no threads left, and
leaves a last heartbeat of zero. -/
def Ended (s : State) : Prop :=
  .RUNNING ∈ s.states → (terminal s).isSome → s.safety = .ended ∧ s.heartbeat = .ended ∧
    (s.run = .returned → s.heartbeats.getLast? = some 0)

/-! ## The invariant -/

/-- Whether `Main` threw. -/
def Behaviour.Crashed (b : Behaviour) (crashed : Bool) : Prop :=
  b.Open = .returns ∧ (crashed = true ↔ b.Main = .throws)

/-- What `Run` wrote. -/
def Written (b : Behaviour) : RunAt → List ServiceState → Prop
  | .check, l | .preCheck, l => l = []
  | .opening, l => l = [.OPENING]
  | .opened, l | .beat, l | .spawnSafety, l | .spawnHeartbeat, l | .serving, l => l = [.OPENING] ∧ b.Open = .returns
  | .main, l => l = [.OPENING, .RUNNING] ∧ b.Open = .returns
  | .stop crashed, l | .joinSafety crashed, l | .joinHeartbeat crashed, l | .joined crashed, l =>
    l = [.OPENING, .RUNNING] ∧ b.Crashed crashed
  | .closing crashed, l | .closed crashed, l => l = [.OPENING, .RUNNING, .CLOSING] ∧ b.Crashed crashed
  | .lastBeat, l => ∃ crashed failSafe, b.Crashed crashed ∧
    l = [.OPENING, .RUNNING, .CLOSING, terminalState crashed failSafe]
  | .returned, l => (l = [.CRASHED] ∨ l = [.FAIL_SAFE]) ∨ (l = [.OPENING, .CRASHED] ∧ b.Open = .throws) ∨
    ∃ crashed failSafe, b.Crashed crashed ∧ l = [.OPENING, .RUNNING, .CLOSING, terminalState crashed failSafe]

/-- Which threads are joined. -/
def Joined : RunAt → State → Prop
  | .joinHeartbeat _, s => s.safety = .ended
  | .joined _, s | .closing _, s | .closed _, s | .lastBeat, s => s.safety = .ended ∧ s.heartbeat = .ended
  | .returned, s => .RUNNING ∈ s.states → s.safety = .ended ∧ s.heartbeat = .ended ∧ s.heartbeats.getLast? = some 0
  | _, _ => True

structure Inv (b : Behaviour) (s : State) : Prop where
  written : Written b s.run s.states
  joined : Joined s.run s

variable {b : Behaviour} {s s' : State}

theorem inv_new (b : Behaviour) : Inv b .new := ⟨rfl, trivial⟩

/-- A thread that has ended makes no step. -/
theorem Inv.thread (h : Inv b s) (hrun : s'.run = s.run) (hstates : s'.states = s.states)
    (hsafety : s.safety = .ended → s'.safety = .ended)
    (hheartbeat : s.heartbeat = .ended → s'.heartbeat = .ended ∧ s'.heartbeats = s.heartbeats) : Inv b s' := by
  refine ⟨by rw [hrun, hstates]; exact h.written, ?_⟩
  have hj := h.joined
  rw [hrun]
  revert hj
  cases s.run with
  | joinHeartbeat crashed => exact hsafety
  | joined crashed | closing crashed | closed crashed | lastBeat =>
    exact fun hj => ⟨hsafety hj.1, (hheartbeat hj.2).1⟩
  | returned =>
    intro hj hrunning
    obtain ⟨h1, h2, h3⟩ := hj (hstates ▸ hrunning)
    exact ⟨hsafety h1, (hheartbeat h2).1, by rw [(hheartbeat h2).2]; exact h3⟩
  | _ => exact fun _ => trivial

theorem inv_safetyStep (h : Inv b s) {safe : Bool} (hs : s.safetyStep b safe = some s') : Inv b s' := by
  have hne : s.safety ≠ .ended := by
    intro hended
    rw [safetyStep, hended] at hs
    cases hs
  have hkept : s'.run = s.run ∧ s'.states = s.states ∧ s'.heartbeat = s.heartbeat ∧
      s'.heartbeats = s.heartbeats := by
    unfold safetyStep at hs
    split at hs <;> cases hs <;> exact ⟨rfl, rfl, rfl, rfl⟩
  obtain ⟨hrun, hstates, hheartbeat, hframes⟩ := hkept
  exact h.thread hrun hstates (fun hended => absurd hended hne) fun hended => ⟨hheartbeat.trans hended, hframes⟩

theorem inv_heartbeatStep (h : Inv b s) {alive : Bool} {timestamp : UInt64}
    (hs : s.heartbeatStep alive timestamp = some s') : Inv b s' := by
  have hne : s.heartbeat ≠ .ended := by
    intro hended
    rw [heartbeatStep, hended] at hs
    cases hs
  have hkept : s'.run = s.run ∧ s'.states = s.states ∧ s'.safety = s.safety := by
    unfold heartbeatStep at hs
    split at hs <;> cases hs <;> exact ⟨rfl, rfl, rfl⟩
  obtain ⟨hrun, hstates, hsafety⟩ := hkept
  exact h.thread hrun hstates (fun hended => hsafety.trans hended) fun hended => absurd hended hne

/-- Where `Run` goes, and what it writes. -/
theorem inv_runStep (h : Inv b s) {safe : Bool} {timestamp : UInt64}
    (hs : s.runStep b safe timestamp = some s') : Inv b s' := by
  obtain ⟨hw, hj⟩ := h
  unfold runStep at hs
  generalize hat : s.run = run at hs hw hj
  cases run with
  | check =>
    dsimp only at hs
    split at hs
    · cases hs
      have hnil : s.states = [] := hw
      refine ⟨.inl (.inl (by rw [states_write, hnil]; rfl)), fun hrunning => ?_⟩
      simp [hnil] at hrunning
    · cases hs
      exact ⟨hw, trivial⟩
  | preCheck =>
    cases hs
    have hnil : s.states = [] := hw
    split
    · have hstates : s.states ++ [.OPENING] = [.OPENING] := by rw [hnil]; rfl
      exact ⟨hstates, trivial⟩
    · refine ⟨.inl (.inr (by rw [states_write, hnil]; rfl)), fun hrunning => ?_⟩
      simp [hnil] at hrunning
  | opening =>
    dsimp only at hs
    split at hs
    · rename_i hopen
      cases hs
      exact ⟨⟨hw, hopen⟩, trivial⟩
    · rename_i hopen
      cases hs
      have hstates : s.states = [.OPENING] := hw
      refine ⟨.inr (.inl ⟨by rw [states_write, hstates]; rfl, hopen⟩), fun hrunning => ?_⟩
      simp [hstates] at hrunning
  | opened | beat | spawnSafety | spawnHeartbeat =>
    cases hs
    exact ⟨hw, trivial⟩
  | serving =>
    cases hs
    exact ⟨⟨by rw [states_write, hw.1]; rfl, hw.2⟩, trivial⟩
  | main =>
    cases hs
    exact ⟨⟨hw.1, hw.2, by simp⟩, trivial⟩
  | stop crashed =>
    cases hs
    exact ⟨hw, trivial⟩
  | joinSafety crashed =>
    dsimp only at hs
    split at hs
    · rename_i hended
      cases hs
      exact ⟨hw, hended⟩
    · cases hs
  | joinHeartbeat crashed =>
    dsimp only at hs
    split at hs
    · rename_i hended
      cases hs
      exact ⟨hw, hj, hended⟩
    · cases hs
  | joined crashed =>
    cases hs
    exact ⟨⟨by rw [states_write, hw.1]; rfl, hw.2⟩, hj⟩
  | closing crashed =>
    cases hs
    exact ⟨hw, hj⟩
  | closed crashed =>
    cases hs
    exact ⟨⟨crashed, s.failSafe, hw.2, by rw [states_write, hw.1]; rfl⟩, hj⟩
  | lastBeat =>
    cases hs
    exact ⟨.inr (.inr hw), fun _ => ⟨hj.1, hj.2, List.getLast?_concat⟩⟩
  | returned => cases hs

theorem inv_step (h : Inv b s) {l : Step} (hs : s.step b l = some s') : Inv b s' := by
  cases l with
  | run safe timestamp => exact inv_runStep h hs
  | safety safe => exact inv_safetyStep h hs
  | heartbeat alive timestamp => exact inv_heartbeatStep h hs
  | shutDown =>
    cases hs
    exact h.thread rfl rfl id fun hended => ⟨hended, rfl⟩

theorem inv_inductive (b : Behaviour) : (lts b).Inductive (Inv b) :=
  ⟨fun _ hs => hs ▸ inv_new b, fun _ _ _ hi hs => inv_step hi hs⟩

/-! ## The terminal state -/

theorem terminal_concat {l : List ServiceState} {state : ServiceState} (hl : s.states = l ++ [state])
    (ht : state = .CLOSED ∨ state = .FAIL_SAFE ∨ state = .CRASHED) : terminal s = some state := by
  unfold terminal
  rw [hl, List.getLast?_concat]
  rcases ht with rfl | rfl | rfl <;> rfl

/-- Where the terminal state of a service that was opened is written: after
`Open` threw, or after `Close`. -/
theorem Inv.terminal_cases (h : Inv b s) (hopening : .OPENING ∈ s.states) {state : ServiceState}
    (ht : terminal s = some state) :
    (s.states = [.OPENING, .CRASHED] ∧ b.Open = .throws ∧ state = .CRASHED) ∨
      ∃ crashed failSafe, b.Crashed crashed ∧ state = terminalState crashed failSafe ∧
        (s.run = .lastBeat ∨ s.run = .returned) := by
  have hw := h.written
  have hclosed : ∀ crashed failSafe, b.Crashed crashed →
      s.states = [.OPENING, .RUNNING, .CLOSING, terminalState crashed failSafe] →
        state = terminalState crashed failSafe := by
    intro crashed failSafe _ hl
    have hterm : terminal s = some (terminalState crashed failSafe) := by
      refine terminal_concat (l := [.OPENING, .RUNNING, .CLOSING]) hl ?_
      unfold terminalState
      split
      · exact .inr (.inr rfl)
      · split
        · exact .inr (.inl rfl)
        · exact .inl rfl
    exact Option.some.inj (ht.symm.trans hterm)
  have hnot : ∀ l, s.states = l → terminal ⟨.check, .ended, .ended, false, false, l, []⟩ = some state := by
    rintro l rfl
    exact ht
  generalize hat : s.run = run at hw
  cases run with
  | lastBeat =>
    obtain ⟨crashed, failSafe, hcrashed, hl⟩ := hw
    exact .inr ⟨crashed, failSafe, hcrashed, hclosed _ _ hcrashed hl, .inl rfl⟩
  | returned =>
    rcases hw with (hl | hl) | ⟨hl, hopen⟩ | ⟨crashed, failSafe, hcrashed, hl⟩
    · simp [hl] at hopening
    · simp [hl] at hopening
    · exact .inl ⟨hl, hopen, (Option.some.inj (hnot _ hl)).symm⟩
    · exact .inr ⟨crashed, failSafe, hcrashed, hclosed _ _ hcrashed hl, .inr rfl⟩
  | check | preCheck | opening => cases hnot _ hw
  | opened | beat | spawnSafety | spawnHeartbeat | serving | main => cases hnot _ hw.1
  | stop crashed | joinSafety crashed | joinHeartbeat crashed | joined crashed => cases hnot _ hw.1
  | closing crashed | closed crashed => cases hnot _ hw.1

theorem Inv.ended (h : Inv b s) : Ended s := by
  intro hrunning hsome
  obtain ⟨state, ht⟩ := Option.isSome_iff_exists.mp hsome
  have hopening : .OPENING ∈ s.states := by
    have hw := h.written
    generalize s.run = run at hw
    cases run with
    | check | preCheck | opening =>
      rw [show s.states = _ from hw] at hrunning
      simp at hrunning
    | opened | beat | spawnSafety | spawnHeartbeat | serving | main => rw [hw.1]; simp
    | stop crashed | joinSafety crashed | joinHeartbeat crashed | joined crashed => rw [hw.1]; simp
    | closing crashed | closed crashed => rw [hw.1]; simp
    | lastBeat =>
      obtain ⟨crashed, failSafe, -, hl⟩ := hw
      simp [hl]
    | returned =>
      rcases hw with (hl | hl) | ⟨hl, -⟩ | ⟨crashed, failSafe, -, hl⟩
      · simp [hl] at hrunning
      · simp [hl] at hrunning
      · simp [hl]
      · simp [hl]
  have hj := h.joined
  rcases h.terminal_cases hopening ht with ⟨hl, -, -⟩ | ⟨crashed, failSafe, -, -, hat | hat⟩
  · simp [hl] at hrunning
  · rw [hat] at hj
    exact ⟨hj.1, hj.2, fun hret => by rw [hat] at hret; cases hret⟩
  · rw [hat] at hj
    obtain ⟨h1, h2, h3⟩ := hj hrunning
    exact ⟨h1, h2, fun _ => h3⟩

/-- Without the key the service is not opened. -/
def Keyed (b : Behaviour) (s : State) : Prop :=
  b.requires_safety = none → s.run = .check ∨ s.run = .returned ∧ s.states = [.CRASHED]

theorem keyed_step (h : Keyed b s) (hinv : Inv b s) {l : Step} (hs : s.step b l = some s') : Keyed b s' := by
  intro hnone
  cases l with
  | run safe timestamp =>
    have hstep : s.runStep b safe timestamp = some s' := hs
    unfold runStep at hstep
    rcases h hnone with hat | ⟨hat, -⟩
    · have hw := hinv.written
      rw [hat] at hw
      rw [hat, hnone] at hstep
      cases hstep
      exact .inr ⟨rfl, by rw [states_write, show s.states = [] from hw]; rfl⟩
    · rw [hat] at hstep
      cases hstep
  | safety safe =>
    have hstep : s.safetyStep b safe = some s' := hs
    unfold safetyStep at hstep
    split at hstep <;> cases hstep <;> exact h hnone
  | heartbeat alive timestamp =>
    have hstep : s.heartbeatStep alive timestamp = some s' := hs
    unfold heartbeatStep at hstep
    split at hstep <;> cases hstep <;> exact h hnone
  | shutDown =>
    cases hs
    exact h hnone

theorem keyed_inductive (b : Behaviour) : (lts b).Inductive fun s => Inv b s ∧ Keyed b s :=
  ⟨fun _ hs => hs ▸ ⟨inv_new b, fun _ => .inl rfl⟩, fun _ _ _ hi hs => ⟨inv_step hi.1 hs, keyed_step hi.2 hi.1 hs⟩⟩

/-- An error in `Open` or `Main` ends in CRASHED. -/
theorem Inv.cleanEnd (h : Inv b s) (hclose : b.Open = .returns → b.Main = .returns → b.Close = .returns) :
    CleanEnd b s := by
  intro hopening state ht
  rcases h.terminal_cases hopening ht with ⟨-, hopen, rfl⟩ | ⟨crashed, failSafe, ⟨hopen, hmain⟩, rfl, -⟩
  · refine ⟨fun hend => ?_, fun _ => rfl⟩
    rcases hend with hend | hend <;> cases hend
  · cases crashed with
    | true =>
      refine ⟨fun hend => ?_, fun _ => rfl⟩
      rcases hend with hend | hend <;> cases hend
    | false =>
      have hret : b.Main = .returns := by
        cases hm : b.Main with
        | returns => rfl
        | throws => exact absurd (hmain.mpr hm) (by decide)
      have hall : b.Returns := ⟨hopen, hret, hclose hopen hret⟩
      exact ⟨fun _ => hall, fun hnot => absurd hall hnot⟩

/-- `Main` returns, and the two threads see the flag. -/
def plainRun : List Step :=
  List.replicate 10 (.run true 1) ++ [.safety true, .heartbeat true 1] ++ List.replicate 6 (.run true 1)

/-- `Close` throws, and the service is closed. -/
theorem exec_plainRun (requires_safety : Bool) : ∃ s,
    LTS.exec (step ⟨some requires_safety, .returns, .returns, .throws⟩) .new plainRun = some s ∧
      s.states = [.OPENING, .RUNNING, .CLOSING, .CLOSED] := by
  cases requires_safety <;> exact ⟨_, rfl, rfl⟩

/-- **What the terminal state tells.** In every run CLOSED or FAIL_SAFE after OPENING
means that `Open`, `Main` and `Close` returned, and CRASHED that one of them
threw, exactly when the service is not opened at all or it is not `Close`
alone that throws. Whatever they do, a run that was running ends its two
threads and leaves a last heartbeat of zero. -/
theorem clean_end_iff (b : Behaviour) :
    ((∀ s, (lts b).Reachable s → CleanEnd b s ∧ Ended s) ↔
      b.requires_safety = none ∨ ¬ (b.Open = .returns ∧ b.Main = .returns ∧ b.Close = .throws)) ∧
      ∀ s, (lts b).Reachable s → Ended s := by
  have hended : ∀ s, (lts b).Reachable s → Ended s := fun s hs => ((inv_inductive b).reachable s hs).ended
  refine ⟨⟨fun hclean => ?_, fun hcond s hs => ⟨?_, hended s hs⟩⟩, hended⟩
  · by_contra hnot
    push Not at hnot
    obtain ⟨hkey, hopen, hmain, hclose⟩ := hnot
    obtain ⟨r, hr⟩ := Option.ne_none_iff_exists'.mp hkey
    have hb : b = ⟨some r, .returns, .returns, .throws⟩ := by
      cases b
      simp_all
    obtain ⟨s, hs, hstates⟩ := exec_plainRun r
    have hreach : (lts b).Reachable s := hb ▸ .of_exec rfl hs
    have hterm : terminal s = some .CLOSED := by rw [terminal, hstates]; rfl
    have hall := ((hclean s hreach).1 (by rw [hstates]; simp) .CLOSED hterm).1 (.inl rfl)
    rw [hall.2.2] at hclose
    cases hclose
  · obtain ⟨hinv, hkeyed⟩ := (keyed_inductive b).reachable s hs
    rcases hcond with hnone | hnot
    · intro hopening
      rcases hkeyed hnone with hat | ⟨-, hl⟩
      · have hw := hinv.written
        rw [hat] at hw
        rw [show s.states = [] from hw] at hopening
        cases hopening
      · simp [hl] at hopening
    · refine hinv.cleanEnd fun hopen hmain => ?_
      cases hc : b.Close with
      | returns => rfl
      | throws => exact absurd ⟨hopen, hmain, hc⟩ hnot

/-- **The counterexample.** `Close` throws, and the state says that the service was
closed. -/
theorem closed_after_error : ¬ ∀ b s, (lts b).Reachable s → CleanEnd b s ∧ Ended s := by
  intro h
  obtain ⟨s, hs, hstates⟩ := exec_plainRun false
  have hterm : terminal s = some .CLOSED := by rw [terminal, hstates]; rfl
  have hall := ((h _ s (.of_exec rfl hs)).1 (by rw [hstates]; simp) .CLOSED hterm).1 (.inl rfl)
  exact absurd hall.2.2 (by decide)

end Catkit2.L4.ServiceRun
