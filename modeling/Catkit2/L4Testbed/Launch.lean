import Catkit2.L4Testbed.Monitor
import Catkit2.L4Testbed.ShutDown
import Catkit2.L4Testbed.Start

/-!
# Launching from two threads (testbed.py Testbed.start_service, Testbed.run)

`start_service` runs on the main thread, for the startup services, and on the
server thread, for requests. Here each of its tests and writes is a step, and
the steps of the two threads, of the service processes and of
`shut_down_all_services` come in any order. A call and the calls around it are
one `Call`: `pending` holds the dependencies these have still to start.

What the host answers is the label's. The monitor thread is left out: it is
not one of the parties. It writes the states of processes that are gone, and
takes one for gone whose start has written INITIALIZING and not yet its
`process_id`.

* `one_unfinished_of_lone`: of the processes of a service at most one has not
  written its terminal state, where no start passes its test while another one
  is on its way.
* `two_processes_launched`: two starts that both pass it launch two.
-/
namespace Catkit2.L4

open Catkit2.L1

/-- What `start_service` does next. `process` is a place in `launched`. -/
inductive StartPc where
  | testRequested | testKnown | testState
  | create
  | writeState (process : Nat)
  | writeProcessId (process : Nat)
  | tune
  deriving DecidableEq

structure Call where
  pc : StartPc
  id : ServiceId
  pending : List ServiceId

inductive Thread where
  | main | server
  deriving DecidableEq

def Thread.other : Thread → Thread
  | .main => .server
  | .server => .main

/-- What the main thread does when it is in no call. -/
inductive MainPc where
  | startup (todo : List ServiceId)
  | waiting
  /-- Out of the `try`, the flag is not set yet. -/
  | leaving
  | requested
  | shutDown
  | ended
  deriving DecidableEq

/-- A process that `start_service` launched. `late`: `shutdown_requested` was
set by then. `dropped`: `shut_down_all_services` no longer had the service in
`shutdown_state`. -/
structure Launched where
  id : ServiceId
  pid : Nat
  phase : ServicePhase
  status : ProcessStatus
  late : Bool
  dropped : Bool

/-- The terminal state is yet to be written. -/
def Launched.unfinished (p : Launched) : Bool := p.phase ≠ .closed ∧ p.phase ≠ .done

/-- `services` holds the service references, and what
`shut_down_all_services` holds. -/
structure Launching where
  services : ShutDown
  shutdown_requested : Bool
  launched : List Launched
  call : Thread → Option Call
  main : MainPc

inductive LaunchStep where
  | call (th : Thread) (h : Host)
  /-- `RecursionError` -/
  | overflow (th : Thread)
  | main (o : Outcome)
  | keyboardInterrupt
  | request (id : ServiceId)
  | shutDown
  | register (n : Nat)
  | update (n : Nat)
  | heartbeat (n : Nat)
  | finish (n : Nat) (state : ServiceState)
  | exit (n : Nat)
  | reap (n : Nat)
  | clock (time : ℚ)

namespace Launching

/-! ## The threads -/

def goTo (s : Launching) (th : Thread) (call : Option Call) : Launching :=
  { s with call := Function.update s.call th call }

/-- The call for the first of the services, if there is one. -/
def enter : List ServiceId → Option Call
  | [] => none
  | id :: pending => some ⟨.testRequested, id, pending⟩

def write (s : Launching) (id : ServiceId) (state : ServiceState) : Launching :=
  { s with services := { s.services with state := Function.update s.services.state id state } }

def record (s : Launching) (id : ServiceId) (pid : Option Nat) : Launching :=
  { s with services := { s.services with process_id := Function.update s.services.process_id id pid } }

/-- The working set of `shut_down_all_services` exists, without the service. -/
def droppedBy (s : Launching) (id : ServiceId) : Bool :=
  match s.main with
  | .shutDown => id ∉ s.services.keys
  | _ => false

def launch (s : Launching) (id : ServiceId) (pid : Nat) : Launching :=
  { s with
    services := { s.services with live := Function.update s.services.live pid true }
    launched := s.launched ++
      [⟨id, pid, .launched, .alive, s.shutdown_requested, s.droppedBy id⟩] }

/-- One step of `start_service`. An exception ends the call and those around
it, on both threads.
mirrors catkit2/testbed/testbed.py:322-326, 470-480, 595-709 -/
def callStep (t : Testbed) (h : Host) (s : Launching) (th : Thread) (c : Call) : Launching :=
  match c.pc with
  | .testRequested =>
    if s.shutdown_requested then s.goTo th none else s.goTo th (some { c with pc := .testKnown })
  | .testKnown =>
    match t.service c.id with
    | none => s.goTo th none
    | some _ => s.goTo th (some { c with pc := .testState })
  | .testState =>
    if startable (s.services.state c.id) then s.goTo th (some { c with pc := .create })
    else s.goTo th (enter c.pending)
  | .create =>
    match t.service c.id with
    | none => s.goTo th none
    | some ref =>
      match createProcess t h c.id ref.service_type with
      | .error _ => s.goTo th none
      | .ok (pid, _) =>
        (s.launch c.id pid).goTo th (some { c with pc := .writeState s.launched.length })
  | .writeState n =>
    (s.write c.id .INITIALIZING).goTo th (some { c with pc := .writeProcessId n })
  | .writeProcessId n =>
    (s.record c.id ((s.launched[n]?).map (·.pid))).goTo th (some { c with pc := .tune })
  | .tune =>
    match h.tune c.id with
    | .error _ => s.goTo th none
    | .ok _ => s.goTo th (enter (t.dependencies c.id ++ c.pending))

/-- One step of `run` where it is in no call.
mirrors catkit2/testbed/testbed.py:326-344 -/
def mainStep (t : Testbed) (s : Launching) (o : Outcome) : Option Launching :=
  match s.main with
  | .startup todo =>
    match s.call .main, todo with
    | some _, _ => none
    | none, [] => some { s with main := .waiting }
    | none, id :: todo => some ({ s with main := .startup todo }.goTo .main (enter [id]))
  | .waiting => some (if s.shutdown_requested then { s with main := .leaving } else s)
  | .leaving => some { s with shutdown_requested := true, main := .requested }
  | .requested =>
    some { s with
      services := { s.services with
        shutdown_state := t.ids.map fun id => (id, .alive, 0)
        pc := .loop }
      main := .shutDown }
  | .shutDown => (ShutDown.mainStep t s.services o).map fun services => { s with services := services }
  | .ended => none

/-- A `KeyboardInterrupt` takes the main thread out of its call.
mirrors catkit2/testbed/testbed.py:337-344 -/
def interrupted (s : Launching) : Option Launching :=
  match s.main with
  | .startup _ | .waiting | .leaving => some ({ s with main := .leaving }.goTo .main none)
  | .requested => some { s with main := .ended }
  | .shutDown => s.services.interruptTo.map fun pc => { s with services := { s.services with pc := pc } }
  | .ended => none

/-! ## The processes -/

/-- A process that can still act. -/
def acting (s : Launching) (n : Nat) : Option Launched := (s.launched[n]?).filter (·.status = .alive)

def replace (s : Launching) (n : Nat) (p : Launched) : Launching :=
  { s with launched := s.launched.set n p }

def step (t : Testbed) (s : Launching) : LaunchStep → Option Launching
  | .call th h => (s.call th).map (callStep t h s th)
  | .overflow th =>
    match s.call th with
    | some c => if c.pc = .testRequested then some (s.goTo th none) else none
    | none => none
  | .main o => mainStep t s o
  | .keyboardInterrupt => s.interrupted
  | .request id =>
    match s.call .server with
    | none => some (s.goTo .server (enter [id]))
    | some _ => none
  | .shutDown =>
    match s.call .server with
    | none => some { s with shutdown_requested := true }
    | some _ => none
  | .register n =>
    match s.acting n, s.call .server with
    | some p, none =>
      if p.phase = .launched then
        some ((s.replace n { p with phase := .registered }).record p.id (some p.pid))
      else none
    | _, _ => none
  | .update n =>
    match s.acting n with
    | some p => p.phase.update.map fun x => (s.replace n { p with phase := x.2 }).write p.id x.1
    | none => none
  | .heartbeat n =>
    match s.acting n with
    | some p => p.phase.heartbeat.map fun phase => s.replace n { p with phase := phase }
    | none => none
  | .finish n state =>
    match s.acting n with
    | some p =>
      (p.phase.finish state).map fun phase => (s.replace n { p with phase := phase }).write p.id state
    | none => none
  | .exit n => (s.acting n).map fun p => s.replace n { p with status := .exited }
  | .reap n =>
    match s.launched[n]? with
    | some p =>
      if p.status = .exited then
        some { s.replace n { p with status := .gone } with
          services := { s.services with live := Function.update s.services.live p.pid false } }
      else none
    | none => none
  | .clock time => some { s with services := { s.services with time := time } }

/-- Nothing was started yet. -/
def init (s : Launching) : Prop :=
  (∀ id, s.services.state id = .CLOSED ∧ s.services.process_id id = none) ∧
    s.shutdown_requested = false ∧ s.launched = [] ∧ (∀ th, s.call th = none) ∧
    ∃ todo, s.main = .startup todo

end Launching

def launching (t : Testbed) : LTS Launching LaunchStep := .ofFn Launching.init (Launching.step t)

/-! ## One process at a time -/

namespace Launching

/-- The process at place `n` is one of the service, and has not written its
terminal state. -/
def unfinished (s : Launching) (n : Nat) (id : ServiceId) : Bool :=
  (s.launched[n]?).any fun p => p.id = id && p.unfinished

/-- A start on its way from its test to a process, or with a process that has
not written its terminal state to the state that shows it. -/
def Starting (s : Launching) (c : Call) : Prop :=
  match c.pc with
  | .create => True
  | .writeState n => s.unfinished n c.id = true
  | _ => False

/-- A start passes its test of the state only while the other thread is not
starting the same service, and no interrupt ends a start whose process does
not show yet. -/
def Lone (s : Launching) : LaunchStep → Prop
  | .call th _ => ∀ c, s.call th = some c → c.pc = .testState →
    startable (s.services.state c.id) = true →
      ∀ c', s.call th.other = some c' → c'.id = c.id → ¬ s.Starting c'
  | .keyboardInterrupt => ∀ c, s.call .main = some c →
    startable (s.services.state c.id) = true → c.pc ≠ .create → ¬ s.Starting c
  | _ => True

/-- A service that can be started has no unfinished process, but for one that
a start has launched and not shown yet. -/
structure Single (t : Testbed) (s : Launching) : Prop where
  one : ∀ id m n, s.unfinished m id = true → s.unfinished n id = true → m = n
  held : ∀ id n, s.unfinished n id = true → startable (s.services.state id) = true →
    ∃ th c, s.call th = some c ∧ c.id = id ∧ c.pc = .writeState n
  create : ∀ th c, s.call th = some c → c.pc = .create → ∀ n, s.unfinished n c.id = false
  alone : ∀ th c c', s.call th = some c → s.call th.other = some c' →
    c.pc = .create → c'.pc = .create → c.id ≠ c'.id
  known : ∀ th c, s.call th = some c → c.pc = .testState ∨ c.pc = .create → t.service c.id ≠ none

variable {t : Testbed} {s s' : Launching}

theorem unfinished_iff {n : Nat} {id : ServiceId} : s.unfinished n id = true ↔
    ∃ p, s.launched[n]? = some p ∧ p.id = id ∧ p.unfinished = true := by
  simp [unfinished, Option.any_eq_true]

/-- A process launched one place further. -/
theorem unfinished_launch {n : Nat} {id id' : ServiceId} {pid : Nat} :
    (s.launch id pid).unfinished n id' = true ↔
      s.unfinished n id' = true ∨ n = s.launched.length ∧ id = id' := by
  simp only [unfinished_iff, launch]
  constructor
  · rintro ⟨p, hp, rfl, hu⟩
    rcases Nat.lt_trichotomy n s.launched.length with hlt | rfl | hgt
    · rw [List.getElem?_append_left hlt] at hp
      exact .inl ⟨p, hp, rfl, hu⟩
    · rw [List.getElem?_concat_length] at hp
      cases hp
      exact .inr ⟨rfl, rfl⟩
    · rw [List.getElem?_eq_none (by simp; omega)] at hp
      cases hp
  · rintro (⟨p, hp, rfl, hu⟩ | ⟨rfl, rfl⟩)
    · have hlt := (List.getElem?_eq_some_iff.mp hp).1
      exact ⟨p, by rw [List.getElem?_append_left hlt]; exact hp, rfl, hu⟩
    · exact ⟨_, List.getElem?_concat_length, rfl, rfl⟩

theorem unfinished_replace {p q : Launched} {n m : Nat} {id : ServiceId} (hp : s.launched[n]? = some p)
    (hid : q.id = p.id) (h : (s.replace n q).unfinished m id = true) :
    (m = n ∧ id = p.id ∧ q.unfinished = true) ∨ (m ≠ n ∧ s.unfinished m id = true) := by
  obtain ⟨p', hp', rfl, hu⟩ := unfinished_iff.mp h
  simp only [replace, List.getElem?_set] at hp'
  by_cases hmn : n = m
  · subst hmn
    rw [if_pos rfl, if_pos (List.getElem?_eq_some_iff.mp hp).1] at hp'
    cases hp'
    exact .inl ⟨rfl, hid, hu⟩
  · rw [if_neg hmn] at hp'
    exact .inr ⟨Ne.symm hmn, unfinished_iff.mpr ⟨p', hp', rfl, hu⟩⟩

@[simp] theorem call_goTo_self (s : Launching) (th : Thread) (call : Option Call) :
    (s.goTo th call).call th = call := by
  simp [goTo]

@[simp] theorem call_goTo_other (s : Launching) (th : Thread) (call : Option Call) :
    (s.goTo th call).call th.other = s.call th.other := by
  cases th <;> rfl

theorem other_other (th : Thread) : th.other.other = th := by cases th <;> rfl

theorem eq_or_other (th th' : Thread) : th' = th ∨ th' = th.other := by
  cases th <;> cases th' <;> simp [Thread.other]

/-- Steps that leave the calls alone, and launch nothing. -/
theorem Single.congr (h : Single t s) (hcall : s'.call = s.call)
    (hle : ∀ n id, s'.unfinished n id = true → s.unfinished n id = true)
    (hstate : ∀ id n, s'.unfinished n id = true → startable (s'.services.state id) = true →
      startable (s.services.state id) = true) : Single t s' := by
  refine ⟨fun id m n hm hn => h.one id m n (hle m id hm) (hle n id hn), fun id n hn hst => ?_,
    fun th c hc hpc n => ?_, ?_, ?_⟩
  · rw [hcall]
    exact h.held id n (hle n id hn) (hstate id n hn hst)
  · rw [hcall] at hc
    by_contra hne
    have := hle n c.id (by simpa using hne)
    rw [h.create th c hc hpc n] at this
    cases this
  · rw [hcall]; exact h.alone
  · rw [hcall]; exact h.known

/-- A thread moves on, or leaves its calls. -/
theorem Single.goTo (h : Single t s) {th : Thread} {call : Option Call}
    (hold : ∀ c n, s.call th = some c → c.pc = .writeState n → s.unfinished n c.id = true →
      startable (s.services.state c.id) = false)
    (hcreate : ∀ c, call = some c → c.pc = .create → (∀ n, s.unfinished n c.id = false) ∧
      ∀ c', s.call th.other = some c' → c'.pc = .create → c.id ≠ c'.id)
    (hknown : ∀ c, call = some c → c.pc = .testState ∨ c.pc = .create → t.service c.id ≠ none) :
    Single t (s.goTo th call) := by
  refine ⟨h.one, fun id n hn hst => ?_, fun th' c hc hpc => ?_, fun th' c c' hc hc' hpc hpc' => ?_,
    fun th' c hc hpc => ?_⟩
  · obtain ⟨th', c, hc, rfl, hpc⟩ := h.held id n hn hst
    rcases eq_or_other th th' with rfl | rfl
    · have hst' := hold c n hc hpc hn
      rw [show startable (s.services.state c.id) = true from hst] at hst'
      cases hst'
    · exact ⟨th.other, c, by rw [call_goTo_other]; exact hc, rfl, hpc⟩
  · rcases eq_or_other th th' with rfl | rfl
    · rw [call_goTo_self] at hc
      exact (hcreate c hc hpc).1
    · rw [call_goTo_other] at hc
      exact h.create _ c hc hpc
  · rcases eq_or_other th th' with rfl | rfl
    · rw [call_goTo_self] at hc
      rw [call_goTo_other] at hc'
      exact (hcreate c hc hpc).2 c' hc' hpc'
    · rw [call_goTo_other] at hc
      rw [other_other, call_goTo_self] at hc'
      exact Ne.symm ((hcreate c' hc' hpc').2 c hc hpc)
  · rcases eq_or_other th th' with rfl | rfl
    · rw [call_goTo_self] at hc
      exact hknown c hc hpc
    · rw [call_goTo_other] at hc
      exact h.known _ c hc hpc

/-- Moving on to something else than the way from the test to the process. -/
theorem Single.moves (h : Single t s) {th : Thread} {c : Call} (hc : s.call th = some c)
    (hpc : ∀ n, c.pc ≠ .writeState n) {call : Option Call}
    (hnew : ∀ c, call = some c → c.pc ≠ .create ∧ (c.pc = .testState → t.service c.id ≠ none)) :
    Single t (s.goTo th call) := by
  refine h.goTo (fun c' n hc' hpc' => ?_) (fun c' hc' hpc' => absurd hpc' (hnew c' hc').1)
    fun c' hc' hpc' => ?_
  · rw [hc] at hc'
    cases hc'
    exact absurd hpc' (hpc n)
  · rcases hpc' with hpc' | hpc'
    · exact (hnew c' hc').2 hpc'
    · exact absurd hpc' (hnew c' hc').1

theorem enter_pc {ids : List ServiceId} {c : Call} (h : enter ids = some c) : c.pc = .testRequested := by
  cases ids with
  | nil => cases h
  | cons id pending => cases h; rfl

/-- A thread that enters its next call. -/
theorem Single.enters (h : Single t s) {th : Thread}
    (hold : ∀ c n, s.call th = some c → c.pc ≠ .writeState n) (ids : List ServiceId) :
    Single t (s.goTo th (enter ids)) := by
  refine h.goTo (fun c n hc hpc => absurd hpc (hold c n hc)) (fun c hc hpc => ?_) fun c hc hpc => ?_
  · rw [enter_pc hc] at hpc; cases hpc
  · rw [enter_pc hc] at hpc; rcases hpc with hpc | hpc <;> cases hpc

theorem Single.leaves (h : Single t s) {th : Thread}
    (hold : ∀ c n, s.call th = some c → c.pc ≠ .writeState n) : Single t (s.goTo th none) :=
  h.enters hold []

/-- The test of the state is passed. -/
theorem Single.passes (h : Single t s) {th : Thread} {c : Call} (hc : s.call th = some c)
    (hpc : c.pc = .testState) (hst : startable (s.services.state c.id) = true)
    (hlone : ∀ c', s.call th.other = some c' → c'.id = c.id → ¬ s.Starting c') :
    Single t (s.goTo th (some { c with pc := .create })) := by
  refine h.goTo (fun c' n hc' hpc' => ?_) (fun c' hc' _ => ⟨fun n => ?_, fun d hd hdpc hid => ?_⟩)
    fun c' hc' _ => ?_
  · rw [hc] at hc'; cases hc'
    rw [hpc] at hpc'; cases hpc'
  · cases hc'
    -- An unfinished process would be held by the other thread.
    by_contra hn
    have hn' : s.unfinished n c.id = true := by simpa using hn
    obtain ⟨th', d, hd, hid, hdpc⟩ := h.held c.id n hn' hst
    rcases eq_or_other th th' with rfl | rfl
    · rw [hc] at hd; cases hd
      rw [hpc] at hdpc; cases hdpc
    · refine hlone d hd hid ?_
      simp only [Starting, hdpc, hid]
      exact hn'
  · cases hc'
    refine hlone d hd hid.symm ?_
    simp only [Starting, hdpc]
  · cases hc'
    exact h.known th c hc (.inl hpc)

/-- A process of a service that has no unfinished one, held by the thread. -/
theorem Single.launch (h : Single t s) {th : Thread} {c : Call} (hc : s.call th = some c)
    (hpc : c.pc = .writeState s.launched.length) (hnone : ∀ n, s.unfinished n c.id = false)
    (hother : ∀ th' c', s.call th' = some c' → c'.pc = .create → c'.id ≠ c.id) (pid : Nat) :
    Single t (s.launch c.id pid) := by
  refine ⟨fun id m n hm hn => ?_, fun id n hn hst => ?_, fun th' c' hc' hpc' n => ?_, h.alone, h.known⟩
  · rcases unfinished_launch.mp hm with hm | ⟨rfl, rfl⟩
    · rcases unfinished_launch.mp hn with hn | ⟨rfl, rfl⟩
      · exact h.one id m n hm hn
      · rw [hnone m] at hm; cases hm
    · rcases unfinished_launch.mp hn with hn | ⟨rfl, -⟩
      · rw [hnone n] at hn; cases hn
      · rfl
  · rcases unfinished_launch.mp hn with hn | ⟨rfl, rfl⟩
    · exact h.held id n hn hst
    · exact ⟨th, c, hc, rfl, hpc⟩
  · by_contra hne
    rcases unfinished_launch.mp (by simpa using hne) with hn | ⟨-, hid⟩
    · rw [h.create th' c' hc' hpc' n] at hn; cases hn
    · exact hother th' c' hc' hpc' hid.symm

/-- A state that shows that the service was started. -/
theorem Single.write (h : Single t s) (id : ServiceId) {state : ServiceState}
    (hst : startable state = false) : Single t (s.write id state) := by
  refine h.congr rfl (fun _ _ hn => hn) fun id' n _ hst' => ?_
  by_cases hid : id' = id
  · subst hid
    simp only [Launching.write, Function.update_self] at hst'
    rw [hst] at hst'
    cases hst'
  · simp only [Launching.write, Function.update_of_ne hid] at hst'
    exact hst'

/-- **One step of a start.** -/
theorem single_callStep (h : Single t s) {host : Host} {th : Thread} {c : Call} (hc : s.call th = some c)
    (hlone : Lone s (.call th host)) : Single t (callStep t host s th c) := by
  have hold : (∀ n, c.pc ≠ .writeState n) → ∀ c' n, s.call th = some c' → c'.pc ≠ .writeState n := by
    intro hpc c' n hc'
    rw [hc] at hc'; cases hc'
    exact hpc n
  cases hpc : c.pc with
  | testRequested =>
    simp only [callStep, hpc]
    split
    · exact h.leaves (hold (by simp [hpc]))
    · refine h.moves hc (by simp [hpc]) fun c' hc' => ?_
      cases hc'
      exact ⟨by simp, by simp⟩
  | testKnown =>
    simp only [callStep, hpc]
    split
    · exact h.leaves (hold (by simp [hpc]))
    · rename_i ref href
      refine h.moves hc (by simp [hpc]) fun c' hc' => ?_
      cases hc'
      exact ⟨by simp, fun _ => by simp [href]⟩
  | testState =>
    simp only [callStep, hpc]
    split
    · rename_i hst
      exact h.passes hc hpc hst (hlone c hc hpc hst)
    · exact h.enters (hold (by simp [hpc])) _
  | create =>
    simp only [callStep, hpc]
    split
    · exact h.leaves (hold (by simp [hpc]))
    · split
      · exact h.leaves (hold (by simp [hpc]))
      · rename_i pid port _
        have hmoved : Single t (s.goTo th (some { c with pc := .writeState s.launched.length })) := by
          refine h.moves hc (by simp [hpc]) fun c' hc' => ?_
          cases hc'
          exact ⟨by simp, by simp⟩
        refine hmoved.launch (c := { c with pc := .writeState s.launched.length }) (call_goTo_self ..) rfl
          (h.create th c hc hpc) (fun th' c' hc' hpc' => ?_) pid
        rcases eq_or_other th th' with rfl | rfl
        · rw [call_goTo_self] at hc'; cases hc'
          cases hpc'
        · rw [call_goTo_other] at hc'
          exact Ne.symm (h.alone th c c' hc hc' hpc hpc')
  | writeState n =>
    simp only [callStep, hpc]
    have hw : Single t (s.write c.id .INITIALIZING) := h.write c.id rfl
    refine hw.goTo (fun c' m hc' _ _ => ?_) (fun c' hc' hpc' => ?_) fun c' hc' hpc' => ?_
    · rw [show s.call th = some c' from hc'] at hc
      cases hc
      simp [Launching.write, startable]
    · cases hc'; cases hpc'
    · cases hc'; rcases hpc' with hpc' | hpc' <;> cases hpc'
  | writeProcessId n =>
    simp only [callStep, hpc]
    have hrec : ∀ pid, Single t (s.record c.id pid) :=
      fun pid => h.congr rfl (fun _ _ hn => hn) fun _ _ _ hst => hst
    refine (hrec _).moves (c := c) hc (by simp [hpc]) fun c' hc' => ?_
    cases hc'
    exact ⟨by simp, by simp⟩
  | tune =>
    simp only [callStep, hpc]
    split
    · exact h.leaves (hold (by simp [hpc]))
    · exact h.enters (hold (by simp [hpc])) _

/-- `shut_down_all_services` writes no state. -/
theorem state_mainStep {d d' : ShutDown} {o : Outcome} (hst : ShutDown.mainStep t d o = some d') :
    d'.state = d.state := by
  have hdue : ∀ id period k, (d.callDue id period k).state = d.state := by
    intro id period k
    unfold ShutDown.callDue
    split <;> rfl
  have hanswer : ∀ sig id k, (d.answer sig id k o).state = d.state := by
    intro sig id k
    cases o <;> rfl
  cases hpc : d.pc with
  | calling sig id k =>
    rcases ShutDown.calling_cases hpc hst with ⟨-, -, rfl⟩ | ⟨-, -, rfl⟩ | ⟨-, -, rfl⟩ | ⟨-, rfl⟩
    · rfl
    · exact hanswer sig id k
    · rfl
    · rfl
  | seen sig id k =>
    rcases ShutDown.seen_cases hpc hst with rfl | ⟨-, -, ⟨-, rfl⟩ | rfl⟩
    · rfl
    · rfl
    · exact hanswer sig id k
  | scan todo shut =>
    cases todo with
    | nil => simp only [ShutDown.mainStep, hpc] at hst; cases hst; rfl
    | cons id todo =>
      simp only [ShutDown.mainStep, hpc] at hst
      split at hst
      · cases hst; rfl
      · split at hst <;> cases hst
        · exact hdue _ _ _
        · rfl
  | gather todo waiting =>
    cases todo with
    | nil => simp only [ShutDown.mainStep, hpc] at hst; cases hst; rfl
    | cons id todo =>
      simp only [ShutDown.mainStep, hpc] at hst
      split at hst
      · cases hst; rfl
      · split at hst <;> cases hst <;> rfl
  | remove shut =>
    cases shut with
    | nil => simp only [ShutDown.mainStep, hpc] at hst; cases hst; rfl
    | cons id shut =>
      simp only [ShutDown.mainStep, hpc] at hst
      split at hst <;> cases hst <;> rfl
  | forced todo =>
    cases todo with
    | nil => simp only [ShutDown.mainStep, hpc] at hst; cases hst; rfl
    | cons id todo =>
      simp only [ShutDown.mainStep, hpc] at hst
      split at hst <;> cases hst
      · exact hdue _ _ _
      · rfl
  | loop => simp only [ShutDown.mainStep, hpc] at hst; split at hst <;> cases hst <;> rfl
  | sleep => simp only [ShutDown.mainStep, hpc] at hst; cases hst; rfl
  | sleep5 waiting => simp only [ShutDown.mainStep, hpc] at hst; cases hst; rfl
  | returned => simp only [ShutDown.mainStep, hpc] at hst; cases hst
  | raised => simp only [ShutDown.mainStep, hpc] at hst; cases hst

/-- What a step of `run` does: it enters the start of a startup service, or
stays out of the calls, where only `leaving` sets the flag. -/
theorem mainStep_cases {o : Outcome} (hst : mainStep t s o = some s') :
    (∃ id todo, s.call .main = none ∧
      s' = ({ s with main := .startup todo }.goTo .main (enter [id]))) ∨
    (s'.call = s.call ∧ s'.launched = s.launched ∧ s'.services.state = s.services.state) := by
  cases hm : s.main with
  | startup todo =>
    simp only [mainStep, hm] at hst
    cases hc : s.call .main with
    | some c => rw [hc] at hst; cases hst
    | none =>
      rw [hc] at hst
      cases todo with
      | nil => cases hst; exact .inr ⟨rfl, rfl, rfl⟩
      | cons id todo => cases hst; exact .inl ⟨id, todo, rfl, rfl⟩
  | waiting =>
    simp only [mainStep, hm] at hst
    cases hst
    refine .inr ⟨?_, ?_, ?_⟩ <;> split <;> rfl
  | leaving => simp only [mainStep, hm] at hst; cases hst; exact .inr ⟨rfl, rfl, rfl⟩
  | requested => simp only [mainStep, hm] at hst; cases hst; exact .inr ⟨rfl, rfl, rfl⟩
  | shutDown =>
    simp only [mainStep, hm] at hst
    obtain ⟨d, hd, rfl⟩ := Option.map_eq_some_iff.mp hst
    exact .inr ⟨rfl, rfl, state_mainStep hd⟩
  | ended => simp only [mainStep, hm] at hst; cases hst

/-- A `KeyboardInterrupt` ends the main thread's calls, or comes later. -/
theorem interrupted_cases (hst : s.interrupted = some s') :
    s' = ({ s with main := .leaving }.goTo .main none) ∨
    (s'.call = s.call ∧ s'.launched = s.launched ∧ s'.services.state = s.services.state) := by
  cases hm : s.main with
  | startup todo => simp only [interrupted, hm] at hst; cases hst; exact .inl rfl
  | waiting => simp only [interrupted, hm] at hst; cases hst; exact .inl rfl
  | leaving => simp only [interrupted, hm] at hst; cases hst; exact .inl rfl
  | requested => simp only [interrupted, hm] at hst; cases hst; exact .inr ⟨rfl, rfl, rfl⟩
  | shutDown =>
    simp only [interrupted, hm] at hst
    obtain ⟨pc, -, rfl⟩ := Option.map_eq_some_iff.mp hst
    exact .inr ⟨rfl, rfl, rfl⟩
  | ended => simp only [interrupted, hm] at hst; cases hst

theorem launched_of_acting {n : Nat} {p : Launched} (h : s.acting n = some p) : s.launched[n]? = some p :=
  Option.eq_some_of_filter_eq_some h

/-- What a process does next that is not its terminal state: it was not at
its end, and its states show that it was started. -/
theorem update_cases {phase : ServicePhase} {x : ServiceState × ServicePhase} (h : phase.update = some x) :
    phase ≠ .closed ∧ phase ≠ .done ∧ startable x.1 = false := by
  cases phase <;> cases h <;> simp [startable]

theorem heartbeat_cases {phase next : ServicePhase} (h : phase.heartbeat = some next) :
    phase ≠ .closed ∧ phase ≠ .done := by
  cases phase <;> cases h <;> simp

theorem finish_cases {phase next : ServicePhase} {state : ServiceState} (h : phase.finish state = some next) :
    phase ≠ .closed ∧ phase ≠ .done ∧ (next = .closed ∨ next = .done) := by
  refine ⟨?_, ?_, (Monitored.startable_of_finish h).2⟩
  · rintro rfl; cases state <;> cases h
  · rintro rfl; cases state <;> cases h

theorem unfinished_of_phase {p : Launched} (hc : p.phase ≠ .closed) (hd : p.phase ≠ .done) :
    p.unfinished = true := by
  simp [Launched.unfinished, hc, hd]

/-- The steps of the service processes, and of the system with them. -/
def ofProcess : LaunchStep → Bool
  | .register _ | .update _ | .heartbeat _ | .finish _ _ | .exit _ | .reap _ => true
  | _ => false

/-- The process `p` at place `n` becomes `q`, and the threads go nowhere. A
state that it writes shows that it was started, or is its terminal state. -/
structure Acts (s s' : Launching) (n : Nat) (p q : Launched) : Prop where
  at_place : s.launched[n]? = some p
  launched : s'.launched = s.launched.set n q
  same : q.id = p.id ∧ q.late = p.late ∧ q.dropped = p.dropped
  unfinished : q.unfinished = true → p.unfinished = true
  threads : s'.call = s.call ∧ s'.main = s.main ∧ s'.shutdown_requested = s.shutdown_requested
  state : s'.services.state = s.services.state ∨
    ∃ st, s'.services.state = Function.update s.services.state p.id st ∧
      (startable st = false ∨ p.unfinished = true ∧ q.unfinished = false)

/-- **What a process can do.** -/
theorem process_cases {l : LaunchStep} (hl : ofProcess l = true) (hst : step t s l = some s') :
    ∃ n p q, Acts s s' n p q := by
  cases l with
  | register n =>
    simp only [step] at hst
    split at hst
    · rename_i p hp _
      split at hst
      · rename_i hph
        cases hst
        refine ⟨n, p, _, launched_of_acting hp, rfl, ⟨rfl, rfl, rfl⟩, fun _ => ?_, ⟨rfl, rfl, rfl⟩, .inl rfl⟩
        exact unfinished_of_phase (by simp [hph]) (by simp [hph])
      · cases hst
    · cases hst
  | update n =>
    simp only [step] at hst
    split at hst
    · rename_i p hp
      obtain ⟨x, hx, rfl⟩ := Option.map_eq_some_iff.mp hst
      obtain ⟨hc, hd, hbusy⟩ := update_cases hx
      exact ⟨n, p, _, launched_of_acting hp, rfl, ⟨rfl, rfl, rfl⟩, fun _ => unfinished_of_phase hc hd,
        ⟨rfl, rfl, rfl⟩, .inr ⟨x.1, rfl, .inl hbusy⟩⟩
    · cases hst
  | heartbeat n =>
    simp only [step] at hst
    split at hst
    · rename_i p hp
      obtain ⟨phase, hph, rfl⟩ := Option.map_eq_some_iff.mp hst
      obtain ⟨hc, hd⟩ := heartbeat_cases hph
      exact ⟨n, p, _, launched_of_acting hp, rfl, ⟨rfl, rfl, rfl⟩, fun _ => unfinished_of_phase hc hd,
        ⟨rfl, rfl, rfl⟩, .inl rfl⟩
    · cases hst
  | finish n state =>
    simp only [step] at hst
    split at hst
    · rename_i p hp
      obtain ⟨phase, hph, rfl⟩ := Option.map_eq_some_iff.mp hst
      obtain ⟨hc, hd, hend⟩ := finish_cases hph
      have hu : p.unfinished = true := unfinished_of_phase hc hd
      have hf : Launched.unfinished { p with phase := phase } = false := by
        rcases hend with rfl | rfl <;> simp [Launched.unfinished]
      exact ⟨n, p, _, launched_of_acting hp, rfl, ⟨rfl, rfl, rfl⟩, fun _ => hu, ⟨rfl, rfl, rfl⟩,
        .inr ⟨state, rfl, .inr ⟨hu, hf⟩⟩⟩
    · cases hst
  | exit n =>
    simp only [step, Option.map_eq_some_iff] at hst
    obtain ⟨p, hp, rfl⟩ := hst
    exact ⟨n, p, _, launched_of_acting hp, rfl, ⟨rfl, rfl, rfl⟩, fun hu => hu, ⟨rfl, rfl, rfl⟩, .inl rfl⟩
  | reap n =>
    simp only [step] at hst
    split at hst
    · rename_i p hp
      split at hst
      · cases hst
        exact ⟨n, p, _, hp, rfl, ⟨rfl, rfl, rfl⟩, fun hu => hu, ⟨rfl, rfl, rfl⟩, .inl rfl⟩
      · cases hst
    · cases hst
  | call th h => cases hl
  | overflow th => cases hl
  | main o => cases hl
  | keyboardInterrupt => cases hl
  | request id => cases hl
  | shutDown => cases hl
  | clock time => cases hl

/-- **One step of a process.** A terminal state is that of the one process of
the service that has none yet. -/
theorem Single.acts (h : Single t s) {n : Nat} {p q : Launched} (ha : Acts s s' n p q) : Single t s' := by
  have hreplace : ∀ m id, s'.unfinished m id = true → (s.replace n q).unfinished m id = true := by
    intro m id hm
    unfold unfinished at hm ⊢
    rw [ha.launched] at hm
    exact hm
  have hle : ∀ m id, s'.unfinished m id = true → s.unfinished m id = true := by
    intro m id hm
    rcases unfinished_replace ha.at_place ha.same.1 (hreplace m id hm) with ⟨rfl, rfl, hq⟩ | ⟨-, hm⟩
    · exact unfinished_iff.mpr ⟨p, ha.at_place, rfl, ha.unfinished hq⟩
    · exact hm
  refine h.congr ha.threads.1 hle fun id m hm hst => ?_
  rcases ha.state with hs | ⟨st, hs, hst'⟩
  · rwa [hs] at hst
  · by_cases hid : id = p.id
    · subst hid
      rw [hs, Function.update_self] at hst
      rcases hst' with hbusy | ⟨hp, hq⟩
      · rw [hbusy] at hst; cases hst
      · rcases unfinished_replace ha.at_place ha.same.1 (hreplace m _ hm) with ⟨-, -, hq'⟩ | ⟨hne, hm'⟩
        · rw [hq] at hq'; cases hq'
        · exact absurd (h.one _ _ _ hm' (unfinished_iff.mpr ⟨p, ha.at_place, rfl, hp⟩)) hne
    · rwa [hs, Function.update_of_ne hid] at hst

theorem single_inductive (t : Testbed) : ((launching t).restrict Lone).Inductive (Single t) := by
  refine ⟨fun s h => ?_, fun s l s' h hst => ?_⟩
  · obtain ⟨-, -, hl, hc, -⟩ := h
    have hnone : ∀ n id, s.unfinished n id = false := by
      intro n id
      simp [unfinished, hl]
    refine ⟨fun id m n hm => ?_, fun id n hn => ?_, fun th c h' => ?_, fun th c c' h' => ?_, fun th c h' => ?_⟩
    · rw [hnone] at hm; cases hm
    · rw [hnone] at hn; cases hn
    · rw [hc] at h'; cases h'
    · rw [hc] at h'; cases h'
    · rw [hc] at h'; cases h'
  · obtain ⟨hg, hst⟩ := hst
    simp only [launching, LTS.ofFn] at hst
    have hidle : ∀ {th : Thread}, s.call th = none → ∀ c n, s.call th = some c → c.pc ≠ .writeState n := by
      intro th hn c n hc
      rw [hn] at hc; cases hc
    cases l with
    | call th host =>
      simp only [step, Option.map_eq_some_iff] at hst
      obtain ⟨c, hc, rfl⟩ := hst
      exact single_callStep h hc hg
    | overflow th =>
      simp only [step] at hst
      split at hst
      · rename_i c hc
        split at hst
        · rename_i hpc
          cases hst
          refine h.leaves fun c' n hc' => ?_
          rw [hc] at hc'; cases hc'
          simp [hpc]
        · cases hst
      · cases hst
    | main o =>
      rcases mainStep_cases hst with ⟨id, todo, hc, rfl⟩ | ⟨hc, hl, hs⟩
      · have hs : Single t { s with main := .startup todo } :=
          h.congr rfl (fun _ _ hn => hn) fun _ _ _ hs => hs
        exact hs.enters (hidle hc) [id]
      · refine h.congr hc (fun n id hn => ?_) fun id n _ hs' => ?_
        · simpa only [unfinished, hl] using hn
        · rwa [hs] at hs'
    | keyboardInterrupt =>
      rcases interrupted_cases hst with rfl | ⟨hc, hl, hs⟩
      · have hs : Single t { s with main := .leaving } :=
          h.congr rfl (fun _ _ hn => hn) fun _ _ _ hs => hs
        refine hs.goTo ?_ (fun c hc => ?_) fun c hc => ?_
        · intro c n hc hpc hn
          by_contra hst
          refine hg c hc (by simpa using hst) (by simp [hpc]) ?_
          simp only [Starting, hpc]
          exact hn
        · cases hc
        · cases hc
      · refine h.congr hc (fun n id hn => ?_) fun id n _ hs' => ?_
        · simpa only [unfinished, hl] using hn
        · rwa [hs] at hs'
    | request id =>
      simp only [step] at hst
      split at hst
      · rename_i hc
        cases hst
        exact h.enters (hidle hc) [id]
      · cases hst
    | shutDown =>
      simp only [step] at hst
      split at hst
      · cases hst; exact h.congr rfl (fun _ _ hn => hn) fun _ _ _ hs => hs
      · cases hst
    | register n | update n | heartbeat n | finish n state | exit n | reap n =>
      obtain ⟨n, p, q, ha⟩ := process_cases rfl hst
      exact h.acts ha
    | clock time =>
      cases hst
      exact h.congr rfl (fun _ _ hn => hn) fun _ _ _ hs => hs

theorem callStep_ideal {th : Thread} {c : Call} (hpc : c.pc = .create) (hk : t.service c.id ≠ none) :
    callStep t .ideal s th c =
      (s.launch c.id 1).goTo th (some { c with pc := .writeState s.launched.length }) := by
  obtain ⟨ref, href⟩ := Option.ne_none_iff_exists'.mp hk
  simp only [callStep, hpc, href, createProcess_ideal]

theorem lt_of_unfinished {n : Nat} {id : ServiceId} (h : s.unfinished n id = true) :
    n < s.launched.length := by
  obtain ⟨p, hp, -⟩ := unfinished_iff.mp h
  exact (List.getElem?_eq_some_iff.mp hp).1

/-- Two starts past the test of the same service: on an ideal host each has
its process. -/
theorem two_of_passed (h : Single t s) {th : Thread} {c c' : Call} (hc : s.call th = some c)
    (hpc : c.pc = .testState) (hst : startable (s.services.state c.id) = true)
    (hc' : s.call th.other = some c') (hid : c'.id = c.id) (hs : s.Starting c') (host : Host) :
    ∃ ls s'', LTS.exec (step t) (callStep t host s th c) ls = some s'' ∧
      ∃ m n, m ≠ n ∧ s''.unfinished m c.id = true ∧ s''.unfinished n c.id = true := by
  have hknown : t.service c.id ≠ none := h.known th c hc (.inl hpc)
  have hpass : callStep t host s th c = s.goTo th (some { c with pc := .create }) := by
    simp only [callStep, hpc, hst, if_true]
  -- the process of the start that passed just now
  obtain ⟨s₁, hs₁⟩ : ∃ s₁, s₁ = (s.goTo th (some { c with pc := .create })).launch c.id 1 := ⟨_, rfl⟩
  have hfirst : step t (callStep t host s th c) (.call th .ideal) =
      some (s₁.goTo th (some { c with pc := .writeState s.launched.length })) := by
    rw [hpass, hs₁]
    simp only [step, call_goTo_self, Option.map_some]
    rw [callStep_ideal (c := { c with pc := .create }) rfl hknown]
    rfl
  have hnew : s₁.unfinished s.launched.length c.id = true := by
    rw [hs₁]
    exact unfinished_launch.mpr (.inr ⟨rfl, rfl⟩)
  cases hpc' : c'.pc with
  | writeState n =>
    simp only [Starting, hpc', hid] at hs
    refine ⟨[.call th .ideal], s₁.goTo th (some { c with pc := .writeState s.launched.length }), ?_,
      s.launched.length, n, ?_, hnew, ?_⟩
    · simp only [LTS.exec, hfirst, Option.bind_some]
    · exact Ne.symm (Nat.ne_of_lt (lt_of_unfinished hs))
    · show s₁.unfinished n c.id = true
      rw [hs₁]
      exact unfinished_launch.mpr (.inl hs)
  | create =>
    obtain ⟨s₂, hs₂⟩ : ∃ s₂, s₂ = s₁.goTo th (some { c with pc := .writeState s.launched.length }) := ⟨_, rfl⟩
    have hcall : s₂.call th.other = some c' := by
      rw [hs₂, hs₁, call_goTo_other]
      exact (call_goTo_other s th _).trans hc'
    have hlen : s₂.launched.length = s.launched.length + 1 := by
      rw [hs₂, hs₁]
      exact List.length_append
    have hsecond : step t s₂ (.call th.other .ideal) =
        some ((s₂.launch c.id 1).goTo th.other (some { c' with pc := .writeState s₂.launched.length })) := by
      simp only [step, hcall, Option.map_some]
      rw [callStep_ideal hpc' (by rw [hid]; exact hknown), hid]
    refine ⟨[.call th .ideal, .call th.other .ideal],
      (s₂.launch c.id 1).goTo th.other (some { c' with pc := .writeState s₂.launched.length }), ?_,
      s.launched.length, s₂.launched.length, ?_, ?_, ?_⟩
    · simp only [LTS.exec, hfirst, ← hs₂, hsecond, Option.bind_some]
    · omega
    · refine unfinished_launch.mpr (.inl ?_)
      rw [hs₂]
      exact hnew
    · exact unfinished_launch.mpr (.inr ⟨rfl, rfl⟩)
  | testRequested => simp only [Starting, hpc'] at hs
  | testKnown => simp only [Starting, hpc'] at hs
  | testState => simp only [Starting, hpc'] at hs
  | writeProcessId n => simp only [Starting, hpc'] at hs
  | tune => simp only [Starting, hpc'] at hs

end Launching

open Launching

/-- **One unfinished process.** Whatever the two threads start and whatever
the processes do, of the processes of a service at most one has not written
its terminal state, in every run whose starts pass their tests alone. After
the first test that is not passed alone, two processes can follow. -/
theorem one_unfinished_of_lone (t : Testbed) :
    (∀ s, ((launching t).restrict Lone).Reachable s → ∀ id m n,
      s.unfinished m id = true → s.unfinished n id = true → m = n) ∧
    ∀ s, ((launching t).restrict Lone).Reachable s → ∀ th h s', step t s (.call th h) = some s' →
      ¬ Lone s (.call th h) → ∃ ls s'', LTS.exec (step t) s' ls = some s'' ∧
        ∃ id m n, m ≠ n ∧ s''.unfinished m id = true ∧ s''.unfinished n id = true := by
  refine ⟨fun s hs => ((single_inductive t).reachable s hs).one, fun s hs th h s' hst hl => ?_⟩
  simp only [Lone, not_forall, not_not] at hl
  obtain ⟨c, hc, hpc, hstart, c', hc', hid, hs'⟩ := hl
  simp only [step, hc, Option.map_some, Option.some.injEq] at hst
  subst hst
  obtain ⟨ls, s'', hexec, m, n, hmn, hm, hn⟩ :=
    two_of_passed ((single_inductive t).reachable s hs) hc hpc hstart hc' hid hs' h
  exact ⟨ls, s'', hexec, c.id, m, n, hmn, hm, hn⟩

/-! ## A power supply that is started twice -/

namespace Launching

instance (s : Launching) (c : Call) : Decidable (s.Starting c) := by
  unfold Starting
  split <;> infer_instance

instance : ∀ (s : Launching) (l : LaunchStep), Decidable (Lone s l)
  | s, .call th _ => decidable_of_iff (∀ c ∈ s.call th, c.pc = .testState →
      startable (s.services.state c.id) = true →
        ∀ c' ∈ s.call th.other, c'.id = c.id → ¬ s.Starting c') Iff.rfl
  | s, .keyboardInterrupt => decidable_of_iff (∀ c ∈ s.call .main,
      startable (s.services.state c.id) = true → c.pc ≠ .create → ¬ s.Starting c) Iff.rfl
  | _, .overflow _ | _, .main _ | _, .request _ | _, .shutDown | _, .register _ | _, .update _
  | _, .heartbeat _ | _, .finish _ _ | _, .exit _ | _, .reap _ | _, .clock _ => isTrue trivial

end Launching

/-- The testbed has come up to its startup services. -/
def comingUp (todo : List ServiceId) : Launching where
  services := ⟨fun _ => none, fun _ => false, fun _ => .CLOSED, 0, [], .loop, []⟩
  shutdown_requested := false
  launched := []
  call _ := none
  main := .startup todo

theorem comingUp_init (todo : List ServiceId) : (comingUp todo).init :=
  ⟨fun _ => ⟨rfl, rfl⟩, rfl, rfl, fun _ => rfl, todo, rfl⟩

/-- A host that gives the next process the number. -/
def Host.giving (pid : Nat) : Host := { Host.ideal with popen := fun _ _ _ => .ok pid }

/-- The steps of a start, all on one thread. -/
def startsAs (th : Thread) (pid : Nat) : List LaunchStep := List.replicate 7 (.call th (.giving pid))

/-- Main starts the camera and then its power supply, which a request finds
already started. -/
def inSequence : List LaunchStep :=
  .main .ok :: startsAs .main 7 ++ startsAs .main 8 ++ .request upsId :: List.replicate 3 (.call .server .ideal)

theorem one_unfinished_of_lone_camera : ∃ s : Launching, s.launched.length = 2 ∧
    ∀ id m n, s.unfinished m id = true → s.unfinished n id = true → m = n := by
  obtain ⟨s, hs, hlen⟩ : ∃ s,
      LTS.exec (LTS.guarded Launching.Lone (Launching.step cameraTestbed)) (comingUp [cameraId])
        inSequence = some s ∧
      s.launched.length = 2 := ⟨_, rfl, by decide⟩
  exact ⟨s, hlen, (one_unfinished_of_lone cameraTestbed).1 s (.of_guarded (comingUp_init _) hs)⟩

/-- The server tests the state of the power supply before the main thread,
which launched it, has written it. -/
theorem two_processes_launched : ¬ ∀ t s, (launching t).Reachable s → ∀ id m n,
    s.unfinished m id = true → s.unfinished n id = true → m = n := by
  intro h
  obtain ⟨s, hs, h0, h1⟩ : ∃ s, LTS.exec (Launching.step cameraTestbed) (comingUp [upsId])
      (.main .ok :: .request upsId :: List.replicate 4 (.call .main (.giving 7)) ++
        List.replicate 4 (.call .server (.giving 8))) = some s ∧
      s.unfinished 0 upsId = true ∧ s.unfinished 1 upsId = true := ⟨_, rfl, by decide, by decide⟩
  have := h _ _ (.of_exec (comingUp_init _) hs) upsId 0 1 h0 h1
  cases this

end Catkit2.L4
