import Catkit2.Core.LTS
import Catkit2.L4Testbed.Config
import Mathlib.Data.Rat.Defs
import Mathlib.Algebra.Order.Ring.Rat

/-!
# Shutting down all services (testbed.py Testbed.shut_down_all_services)

The loop as a step relation. `Pc` is the point the main thread is at: the
`while` test, the scan over `shutdown_state`, inside `stop`, `interrupt` or
`terminate` of one service, the removal of the services that are gone, the
waits, and the handler of a `KeyboardInterrupt` with its forced path. Each
read of a `process` property is one step, so that a process may exit between
any two reads. The environment ends processes, writes states, moves the clock
and polls `process` from the monitor thread; no service is started or
registered. How a call reacts is the label's `Outcome`: it returns, or raises
(an error reply or time-out of `shut_down`, a process that may not be spawned
or signalled).

`log` records each service that the scan finds without a process, and each
call of `stop`, `interrupt` and `terminate`.

* `Good`, `At`: the invariant. The first is about the dictionary and the
  log, the second about the lists the main thread holds.
* `signals_in_order`: whatever is interrupted, a service is signalled only
  after all that depend on it were seen gone.
-/
namespace Catkit2.L4

open Catkit2.L1

inductive Signal where
  | stop | interrupt | terminate
  deriving DecidableEq, Repr

/-- mirrors catkit2/testbed/testbed.py:766, 819-844 -/
inductive Phase where
  | alive | stopped | interrupted | terminated
  deriving DecidableEq, Repr

inductive Event where
  | gone (id : ServiceId)
  | signal (sig : Signal) (id : ServiceId)
  deriving DecidableEq

/-- Where `_shut_down_service_with_leniency` returns to. -/
inductive Cont where
  | scan (todo shut : List ServiceId)
  | forced (todo : List ServiceId)

inductive Pc where
  | loop
  | scan (todo shut : List ServiceId)
  | calling (sig : Signal) (id : ServiceId) (k : Cont)
  /-- `interrupt` and `terminate` have seen a process. -/
  | seen (sig : Signal) (id : ServiceId) (k : Cont)
  | remove (shut : List ServiceId)
  | sleep
  | gather (todo waiting : List ServiceId)
  | sleep5 (waiting : List ServiceId)
  | forced (todo : List ServiceId)
  | returned
  | raised

def Cont.pc : Cont → Pc
  | .scan todo shut => .scan todo shut
  | .forced todo => .forced todo

/-- `shutdown_state` keeps its services in order. A process that was recorded
is alive as long as the operating system says so. -/
structure ShutDown where
  process_id : ServiceId → Option Nat
  live : Nat → Bool
  state : ServiceId → ServiceState
  time : ℚ
  shutdown_state : List (ServiceId × Phase × ℚ)
  pc : Pc
  log : List Event

inductive Outcome where
  | ok | raise
  deriving DecidableEq

inductive ShutDownStep where
  | main (o : Outcome)
  | keyboardInterrupt
  | exit (pid : Nat)
  | write (id : ServiceId) (state : ServiceState)
  | clock (time : ℚ)
  | poll (id : ServiceId)

namespace ShutDown

def keys (s : ShutDown) : List ServiceId := OrdMap.keys s.shutdown_state

/-! ## ServiceReference -/

/-- What reading the `process` property returns.
mirrors catkit2/testbed/testbed.py:121-130 -/
def process (s : ShutDown) (id : ServiceId) : Option Nat :=
  match s.process_id id with
  | none => none
  | some pid => if s.live pid then some pid else none

/-- What reading it leaves behind where it returns `None`. -/
def forget (s : ShutDown) (id : ServiceId) : ShutDown :=
  { s with process_id := Function.update s.process_id id none }

/-! ## One service -/

/-- No dependent is in `shutdown_state`. -/
def eligible (t : Testbed) (s : ShutDown) (id : ServiceId) : Bool :=
  (t.dependedOnBy id).all fun dependent => dependent ∉ s.keys

/-- The call that is due after `leniency_period`, in the service's phase.
mirrors catkit2/testbed/testbed.py:819-844 -/
def due (s : ShutDown) (id : ServiceId) (leniency_period : ℚ) : Option Signal :=
  match s.shutdown_state.lookup id with
  | some (.alive, _) => some .stop
  | some (.stopped, t) => if s.time - t > leniency_period then some .interrupt else none
  | some (.interrupted, t) => if s.time - t > leniency_period then some .terminate else none
  | some (.terminated, _) | none => none

/-- `_shut_down_service_with_leniency` up to its call, if it makes one. -/
def callDue (s : ShutDown) (id : ServiceId) (leniency_period : ℚ) (k : Cont) : ShutDown :=
  match due s id leniency_period with
  | none => { s with pc := k.pc }
  | some sig => { s with pc := .calling sig id k, log := s.log ++ [.signal sig id] }

/-- The phase a call leads to. -/
def phaseAfter : Signal → Phase
  | .stop => .stopped
  | .interrupt => .interrupted
  | .terminate => .terminated

/-- The call returned: `shutdown_state[id] = (phase, time.time())`. -/
def finish (s : ShutDown) (sig : Signal) (id : ServiceId) (k : Cont) : ShutDown :=
  { s with
    shutdown_state := s.shutdown_state.map fun e => if e.1 = id then (id, phaseAfter sig, s.time) else e
    pc := k.pc }

/-- The call returned or raised. -/
def answer (s : ShutDown) (sig : Signal) (id : ServiceId) (k : Cont) : Outcome → ShutDown
  | .ok => s.finish sig id k
  | .raise => { s with pc := .raised }

/-! ## The loop -/

/-- The next step of the main thread.
mirrors catkit2/testbed/testbed.py:132-173, 758-817 -/
def mainStep (t : Testbed) (s : ShutDown) (o : Outcome) : Option ShutDown :=
  match s.pc with
  | .loop =>
    if s.shutdown_state = [] then some { s with pc := .returned }
    else some { s with pc := .scan s.keys [] }
  | .scan [] shut => some { s with pc := .remove shut }
  | .scan (id :: todo) shut =>
    match s.process id with
    | none => some { s.forget id with pc := .scan todo (shut ++ [id]), log := s.log ++ [.gone id] }
    | some _ =>
      if eligible t s id then some (s.callDue id 60 (.scan todo shut))
      else some { s with pc := .scan todo shut }
  | .calling .stop id k =>
    if s.state id ≠ .RUNNING then some (s.finish .stop id k) else some (s.answer .stop id k o)
  | .calling sig id k =>
    match s.process id with
    | none => some ((s.forget id).finish sig id k)
    | some _ => some { s with pc := .seen sig id k }
  | .seen .stop _ _ => none
  | .seen .interrupt id k =>
    if isAliveState (s.state id) then
      match s.process id with
      | none => some { s.forget id with pc := .raised }  -- None has no pid
      | some _ => some (s.answer .interrupt id k o)
    else some (s.finish .interrupt id k)
  | .seen .terminate id k =>
    match s.process id with
    | none => some { s.forget id with pc := .raised }  -- None has no terminate
    | some _ => some (s.answer .terminate id k o)
  | .remove [] => some { s with pc := .sleep }
  | .remove (id :: shut) =>
    if id ∈ s.keys then
      some { s with shutdown_state := s.shutdown_state.filter (·.1 ≠ id), pc := .remove shut }
    else some { s with pc := .raised }  -- KeyError
  | .sleep => some { s with pc := .loop }
  | .gather [] waiting => some { s with pc := .sleep5 waiting }
  | .gather (id :: todo) waiting =>
    match s.process id with
    | none => some { s.forget id with pc := .gather todo waiting }
    | some _ =>
      if eligible t s id then some { s with pc := .gather todo (waiting ++ [id]) }
      else some { s with pc := .gather todo waiting }
  | .sleep5 _ => some { s with pc := .loop }
  | .forced [] => some { s with pc := .loop }
  | .forced (id :: todo) =>
    if id ∈ s.keys then some (s.callDue id 0 (.forced todo))
    else some { s with pc := .raised }  -- KeyError
  | .returned | .raised => none

/-- Where a `KeyboardInterrupt` takes the main thread: to the handler from
inside the `try`, to the forced path from its wait, out from elsewhere. -/
def interruptTo (s : ShutDown) : Option Pc :=
  match s.pc with
  | .scan _ _ | .remove _ | .sleep | .calling _ _ (.scan _ _) | .seen _ _ (.scan _ _) =>
    some (.gather s.keys [])
  | .sleep5 waiting => some (.forced waiting)
  | .loop | .gather _ _ | .forced _ | .calling _ _ (.forced _) | .seen _ _ (.forced _) => some .raised
  | .returned | .raised => none

def step (t : Testbed) (s : ShutDown) : ShutDownStep → Option ShutDown
  | .main o => mainStep t s o
  | .keyboardInterrupt => s.interruptTo.map fun pc => { s with pc := pc }
  | .exit pid => some { s with live := Function.update s.live pid false }
  | .write id state => some { s with state := Function.update s.state id state }
  | .clock time => some { s with time := time }
  | .poll id =>
    match s.process id with
    | none => some (s.forget id)
    | some _ => some s

/-- Any services may be running. -/
def init (t : Testbed) (s : ShutDown) : Prop :=
  s.shutdown_state = t.ids.map (fun id => (id, .alive, 0)) ∧ s.pc = .loop ∧ s.log = []

end ShutDown

def shutDown (t : Testbed) : LTS ShutDown ShutDownStep := .ofFn (ShutDown.init t) (ShutDown.step t)

/-! ## The invariant -/

/-- A call needs all dependents to be gone, and the call before it. -/
def needs (t : Testbed) : Event → Event → Prop
  | .signal _ id, .gone x => x ∈ t.dependedOnBy id
  | .signal .interrupt id, .signal .stop x => x = id
  | .signal .terminate id, .signal .interrupt x => x = id
  | _, _ => False

/-- The call that led to a phase. -/
def Phase.signal : Phase → Option Signal
  | .alive => none
  | .stopped => some .stop
  | .interrupted => some .interrupt
  | .terminated => some .terminate

namespace Pc

/-- Services found gone in this scan. -/
def shut : Pc → List ServiceId
  | .scan _ shut | .remove shut => shut
  | .calling _ _ (.scan _ shut) | .seen _ _ (.scan _ shut) => shut
  | _ => []

/-- Services still to be looked at. -/
def todo : Pc → List ServiceId
  | .scan todo _ | .gather todo _ => todo
  | .calling _ _ (.scan todo _) | .seen _ _ (.scan todo _) => todo
  | _ => []

/-- Services that the handler waits for. -/
def waiting : Pc → List ServiceId
  | .gather _ waiting | .sleep5 waiting | .forced waiting => waiting
  | .calling _ _ (.forced waiting) | .seen _ _ (.forced waiting) => waiting
  | _ => []

def call : Pc → Option (Signal × ServiceId)
  | .calling sig id _ | .seen sig id _ => some (sig, id)
  | _ => none

def ended : Pc → Bool
  | .returned | .raised => true
  | _ => false

end Pc

namespace ShutDown

/-- The dictionary and the log: what left the dictionary was seen gone, and
what was seen gone has no process any more. -/
structure Good (t : Testbed) (s : ShutDown) : Prop where
  justified : Justified (needs t) s.log
  gone : ∀ x ∈ t.ids, x ∉ s.keys → .gone x ∈ s.log
  noProcess : ∀ x, .gone x ∈ s.log → s.process_id x = none
  nodup : s.keys.Nodup
  phases : ∀ e ∈ s.shutdown_state, ∀ sig, e.2.1.signal = some sig → .signal sig e.1 ∈ s.log

/-- The lists the main thread holds at `pc`. -/
structure At (t : Testbed) (s : ShutDown) (pc : Pc) : Prop where
  shut : ∀ x ∈ pc.shut, .gone x ∈ s.log
  nodup : (pc.shut ++ pc.todo).Nodup
  listed : ∀ x ∈ pc.shut ++ pc.todo, x ∈ s.keys
  waiting : ∀ x ∈ pc.waiting, x ∈ s.keys ∧ s.eligible t x = true
  called : ∀ sig id, pc.call = some (sig, id) → .signal sig id ∈ s.log

variable {t : Testbed} {s s' : ShutDown}

/-! ## What the pieces of a step keep -/

theorem keys_finish (s : ShutDown) (sig : Signal) (id : ServiceId) (k : Cont) :
    (s.finish sig id k).keys = s.keys := by
  unfold keys finish OrdMap.keys
  rw [List.map_map]
  apply List.map_congr_left
  intro e _
  show (if e.1 = id then (id, phaseAfter sig, s.time) else e).1 = e.1
  split
  · rename_i h; exact h.symm
  · rfl

theorem eligible_congr (hk : s'.keys = s.keys) (x : ServiceId) : eligible t s' x = eligible t s x := by
  unfold eligible; rw [hk]

theorem eligible_iff {x : ServiceId} : eligible t s x = true ↔ ∀ d ∈ t.dependedOnBy x, d ∉ s.keys := by
  simp [eligible]

/-- The main thread's lists are unaffected by what leaves the keys alone. -/
theorem At.congr {pc : Pc} (h : At t s pc) (hk : s'.keys = s.keys) (hl : ∀ e ∈ s.log, e ∈ s'.log) :
    At t s' pc := by
  refine ⟨fun x hx => hl _ (h.shut x hx), h.nodup, fun x hx => ?_, fun x hx => ?_,
    fun sig id hc => hl _ (h.called sig id hc)⟩
  · rw [hk]; exact h.listed x hx
  · rw [hk, eligible_congr hk]; exact h.waiting x hx

/-- Nor is the invariant, as long as no process is recorded anew. -/
theorem Good.congr (h : Good t s) (hd : s'.shutdown_state = s.shutdown_state) (hl : s'.log = s.log)
    (hp : ∀ x, s.process_id x = none → s'.process_id x = none) : Good t s' := by
  have hk : s'.keys = s.keys := by unfold keys; rw [hd]
  refine ⟨by rw [hl]; exact h.justified, fun x hx hn => ?_, fun x hx => hp x (h.noProcess x ?_),
    by rw [hk]; exact h.nodup, by rw [hd, hl]; exact h.phases⟩
  · rw [hl]; rw [hk] at hn; exact h.gone x hx hn
  · rwa [hl] at hx

theorem forget_process_id (s : ShutDown) (id x : ServiceId) (h : s.process_id x = none) :
    (s.forget id).process_id x = none := by
  by_cases hx : x = id
  · subst hx; simp [forget]
  · simp [forget, hx, h]

theorem Good.forget (h : Good t s) (id : ServiceId) : Good t (s.forget id) :=
  h.congr rfl rfl (s.forget_process_id id)

/-- The scan finds a service without a process. -/
theorem Good.observe (h : Good t s) (id : ServiceId) {pc : Pc} :
    Good t { s.forget id with pc := pc, log := s.log ++ [.gone id] } := by
  refine ⟨h.justified.snoc fun r hr => ?_, fun x hx hn => ?_, fun x hx => ?_, h.nodup,
    fun e he sig hs => List.mem_append_left _ (h.phases e he sig hs)⟩
  · cases r <;> cases hr
  · exact List.mem_append_left _ (h.gone x hx hn)
  · rcases List.mem_append.mp hx with hx | hx
    · exact s.forget_process_id id x (h.noProcess x hx)
    · rw [List.mem_singleton] at hx
      cases hx
      simp [ShutDown.forget]

/-- The dependents of an eligible service were all seen gone. -/
theorem Good.gone_of_eligible (h : Good t s) {id x : ServiceId} (he : eligible t s id = true)
    (hx : x ∈ t.dependedOnBy id) : .gone x ∈ s.log := by
  obtain ⟨e, hmem, rfl, -⟩ := (t.mem_dependedOnBy x id).mp hx
  exact h.gone e.1 (List.mem_map_of_mem hmem) (eligible_iff.mp he _ hx)

/-- The call before the one that is due was made. -/
theorem Good.due_needs (h : Good t s) {id : ServiceId} {period : ℚ} {sig : Signal}
    (hd : s.due id period = some sig) (he : eligible t s id = true) :
    ∀ r, needs t (.signal sig id) r → r ∈ s.log := by
  intro r hr
  cases r with
  | gone x =>
    have hx : x ∈ t.dependedOnBy id := by cases sig <;> exact hr
    exact h.gone_of_eligible he hx
  | signal sig' x =>
    unfold due at hd
    cases hl : s.shutdown_state.lookup id with
    | none => rw [hl] at hd; cases hd
    | some e =>
      obtain ⟨phase, time⟩ := e
      have hmem : (id, phase, time) ∈ s.shutdown_state := by
        obtain ⟨l₁, l₂, heq, -⟩ := List.lookup_eq_some_iff.mp hl
        rw [heq]; simp
      rw [hl] at hd
      cases phase with
      | alive => cases hd; cases sig' <;> cases hr
      | stopped =>
        simp only at hd
        split at hd
        · cases hd
          cases sig' with
          | stop => cases hr; exact h.phases _ hmem _ rfl
          | interrupt => cases hr
          | terminate => cases hr
        · cases hd
      | interrupted =>
        simp only at hd
        split at hd
        · cases hd
          cases sig' with
          | stop => cases hr
          | interrupt => cases hr; exact h.phases _ hmem _ rfl
          | terminate => cases hr
        · cases hd
      | terminated => cases hd

theorem Good.callDue (h : Good t s) {id : ServiceId} {period : ℚ} {k : Cont}
    (he : eligible t s id = true) : Good t (s.callDue id period k) := by
  unfold ShutDown.callDue
  split
  · exact h.congr rfl rfl fun _ hx => hx
  · rename_i sig hd
    refine ⟨h.justified.snoc (h.due_needs hd he),
      fun x hx hn => List.mem_append_left _ (h.gone x hx hn), fun x hx => ?_, h.nodup,
      fun e he sig hs => List.mem_append_left _ (h.phases e he sig hs)⟩
    rcases List.mem_append.mp hx with hx | hx
    · exact h.noProcess x hx
    · rw [List.mem_singleton] at hx; cases hx

/-- The main thread is where the continuation takes it. -/
theorem At.callDue {id : ServiceId} {period : ℚ} {k : Cont} (h : At t s k.pc) :
    At t (s.callDue id period k) (s.callDue id period k).pc := by
  unfold ShutDown.callDue
  split
  · exact h.congr rfl fun _ he => he
  · rename_i sig _
    have hl : ∀ e ∈ s.log, e ∈ s.log ++ [Event.signal sig id] := fun e he => List.mem_append_left _ he
    have hnext : At t { s with pc := .calling sig id k, log := s.log ++ [.signal sig id] } k.pc :=
      h.congr rfl hl
    obtain ⟨h1, h2, h3, h4, -⟩ := hnext
    have hc : ∀ sig' id', (Pc.calling sig id k).call = some (sig', id') →
        Event.signal sig' id' ∈ s.log ++ [Event.signal sig id] := by
      intro sig' id' he
      cases he
      simp
    cases k with
    | scan todo shut => exact ⟨h1, h2, h3, h4, hc⟩
    | forced todo => exact ⟨h1, h2, h3, h4, hc⟩

theorem Good.finish (h : Good t s) {sig : Signal} {id : ServiceId} {k : Cont}
    (hc : .signal sig id ∈ s.log) : Good t (s.finish sig id k) := by
  refine ⟨h.justified, fun x hx hn => ?_, h.noProcess, ?_, fun e he sig' hs => ?_⟩
  · rw [keys_finish] at hn; exact h.gone x hx hn
  · rw [keys_finish]; exact h.nodup
  · obtain ⟨e', he', rfl⟩ := List.mem_map.mp he
    by_cases hid : e'.1 = id
    · rw [if_pos hid] at hs ⊢
      cases sig <;> cases hs <;> exact hc
    · rw [if_neg hid] at hs ⊢
      exact h.phases e' he' sig' hs

theorem Good.delete (h : Good t s) {id : ServiceId} (hid : .gone id ∈ s.log) {pc : Pc} :
    Good t { s with shutdown_state := s.shutdown_state.filter (·.1 ≠ id), pc := pc } := by
  have hk : OrdMap.keys (s.shutdown_state.filter (·.1 ≠ id)) = s.keys.filter (· ≠ id) := by
    unfold keys OrdMap.keys
    rw [List.filter_map]
    rfl
  refine ⟨h.justified, fun x hx hn => ?_, h.noProcess, ?_, fun e he sig hs => ?_⟩
  · by_cases hxid : x = id
    · subst hxid; exact hid
    · refine h.gone x hx fun hin => hn ?_
      show x ∈ OrdMap.keys _
      rw [hk, List.mem_filter]
      exact ⟨hin, by simpa using hxid⟩
  · show (OrdMap.keys _).Nodup
    rw [hk]
    exact h.nodup.filter _
  · exact h.phases e (List.mem_of_mem_filter he) sig hs

/-! ## Where the main thread goes -/

theorem At.idle {pc : Pc} (h1 : pc.shut = []) (h2 : pc.todo = []) (h3 : pc.waiting = [])
    (h4 : pc.call = none) : At t s pc := by
  refine ⟨?_, ?_, ?_, ?_, ?_⟩
  · intro x hx; rw [h1] at hx; cases hx
  · rw [h1, h2]; exact List.nodup_nil
  · intro x hx; rw [h1, h2] at hx; cases hx
  · intro x hx; rw [h3] at hx; cases hx
  · intro sig id hc; rw [h4] at hc; cases hc

/-- The dictionary and the log, and the lists of the main thread. -/
structure Inv (t : Testbed) (s : ShutDown) : Prop where
  good : Good t s
  at_pc : At t s s.pc

theorem Good.finished (h : Good t s) {sig : Signal} {id : ServiceId} {k : Cont}
    (hc : .signal sig id ∈ s.log) (hk : At t s k.pc) : Inv t (s.finish sig id k) :=
  ⟨h.finish hc, hk.congr (keys_finish s sig id k) fun _ he => he⟩

theorem Good.answered (h : Good t s) {sig : Signal} {id : ServiceId} {k : Cont}
    (hc : .signal sig id ∈ s.log) (hk : At t s k.pc) (o : Outcome) : Inv t (s.answer sig id k o) := by
  cases o with
  | ok => exact h.finished hc hk
  | raise => exact ⟨h.congr rfl rfl fun _ hx => hx, .idle rfl rfl rfl rfl⟩

theorem At.cont {sig : Signal} {id : ServiceId} {k : Cont} {pc : Pc}
    (h : At t s pc) (hpc : pc = .calling sig id k ∨ pc = .seen sig id k) :
    At t s k.pc ∧ .signal sig id ∈ s.log := by
  rcases hpc with rfl | rfl
  · refine ⟨?_, h.called sig id rfl⟩
    cases k <;>
    exact ⟨h.shut, h.nodup, h.listed, h.waiting, fun _ _ hc => by cases hc⟩
  · refine ⟨?_, h.called sig id rfl⟩
    cases k <;>
    exact ⟨h.shut, h.nodup, h.listed, h.waiting, fun _ _ hc => by cases hc⟩

/-- Reading a process property leaves the rest alone. -/
theorem At.forget {pc : Pc} (h : At t s pc) (id : ServiceId) : At t (s.forget id) pc :=
  h.congr rfl fun _ he => he

theorem inv_scan {id : ServiceId} {todo shut : List ServiceId} (hg : Good t s)
    (ha : At t s (.scan (id :: todo) shut)) {o : Outcome} (hpc : s.pc = .scan (id :: todo) shut)
    (hst : mainStep t s o = some s') : Inv t s' := by
  have hnext : At t s (.scan todo shut) := by
    refine ⟨ha.shut, ha.nodup.sublist ?_, fun x hx => ha.listed x ?_, ha.waiting, fun _ _ hc => by cases hc⟩
    · exact List.Sublist.append_left (List.sublist_cons_self _ _) _
    · exact (List.Sublist.append_left (List.sublist_cons_self _ _) _).subset hx
  simp only [mainStep, hpc] at hst
  split at hst
  · cases hst
    refine ⟨hg.observe id, ?_, ?_, ?_, ?_, ?_⟩
    · intro x hx
      rcases List.mem_append.mp hx with hx | hx
      · exact List.mem_append_left _ (ha.shut x hx)
      · rw [List.mem_singleton] at hx; subst hx; simp
    · have hn : (shut ++ id :: todo).Nodup := ha.nodup
      show (shut ++ [id] ++ todo).Nodup
      rwa [List.append_assoc, List.singleton_append]
    · intro x hx
      have hx' : x ∈ shut ++ [id] ++ todo := hx
      rw [List.append_assoc, List.singleton_append] at hx'
      exact ha.listed x hx'
    · exact ha.waiting
    · intro _ _ hc; cases hc
  · split at hst
    · rename_i hel
      cases hst
      exact ⟨hg.callDue hel, hnext.callDue⟩
    · cases hst
      exact ⟨hg.congr rfl rfl fun _ hx => hx, hnext.congr rfl fun _ he => he⟩

/-- Inside a call: `stop` looks at the state, the others at the process. -/
theorem calling_cases {sig : Signal} {id : ServiceId} {k : Cont} {o : Outcome}
    (hpc : s.pc = .calling sig id k) (hst : mainStep t s o = some s') :
    (sig = .stop ∧ s.state id ≠ .RUNNING ∧ s' = s.finish sig id k) ∨
      (sig = .stop ∧ s.state id = .RUNNING ∧ s' = s.answer sig id k o) ∨
      (sig ≠ .stop ∧ s.process id = none ∧ s' = (s.forget id).finish sig id k) ∨
      (sig ≠ .stop ∧ s' = { s with pc := .seen sig id k }) := by
  cases sig with
  | stop =>
    simp only [mainStep, hpc] at hst
    split at hst
    · rename_i hrun; cases hst; exact .inl ⟨rfl, hrun, rfl⟩
    · rename_i hrun; cases hst; exact .inr (.inl ⟨rfl, not_not.mp hrun, rfl⟩)
  | interrupt =>
    simp only [mainStep, hpc] at hst
    split at hst
    · rename_i hnone; cases hst; exact .inr (.inr (.inl ⟨by simp, hnone, rfl⟩))
    · cases hst; exact .inr (.inr (.inr ⟨by simp, rfl⟩))
  | terminate =>
    simp only [mainStep, hpc] at hst
    split at hst
    · rename_i hnone; cases hst; exact .inr (.inr (.inl ⟨by simp, hnone, rfl⟩))
    · cases hst; exact .inr (.inr (.inr ⟨by simp, rfl⟩))

/-- After the process was seen it is read again, but for an `interrupt` of a
service that is not in an alive state. -/
theorem seen_cases {sig : Signal} {id : ServiceId} {k : Cont} {o : Outcome}
    (hpc : s.pc = .seen sig id k) (hst : mainStep t s o = some s') :
    s' = s.finish sig id k ∨
      (sig ≠ .stop ∧ (sig = .interrupt → isAliveState (s.state id) = true) ∧
        (s.process id = none ∧ s' = { s.forget id with pc := .raised } ∨ s' = s.answer sig id k o)) := by
  cases sig with
  | stop => simp only [mainStep, hpc] at hst; cases hst
  | interrupt =>
    simp only [mainStep, hpc] at hst
    split at hst
    · rename_i halive
      refine .inr ⟨by simp, fun _ => halive, ?_⟩
      split at hst
      · rename_i hnone; cases hst; exact .inl ⟨hnone, rfl⟩
      · cases hst; exact .inr rfl
    · cases hst; exact .inl rfl
  | terminate =>
    simp only [mainStep, hpc] at hst
    refine .inr ⟨by simp, by simp, ?_⟩
    split at hst
    · rename_i hnone; cases hst; exact .inl ⟨hnone, rfl⟩
    · cases hst; exact .inr rfl

theorem inv_calling {sig : Signal} {id : ServiceId} {k : Cont} (hg : Good t s)
    (ha : At t s (.calling sig id k)) {o : Outcome} (hpc : s.pc = .calling sig id k)
    (hst : mainStep t s o = some s') : Inv t s' := by
  obtain ⟨hk, hc⟩ := ha.cont (.inl rfl)
  rcases calling_cases hpc hst with ⟨-, -, rfl⟩ | ⟨-, -, rfl⟩ | ⟨-, -, rfl⟩ | ⟨-, rfl⟩
  · exact hg.finished hc hk
  · exact hg.answered hc hk o
  · exact (hg.forget id).finished hc (hk.forget id)
  · refine ⟨hg.congr rfl rfl fun _ hx => hx, ?_⟩
    cases k <;> exact ⟨ha.shut, ha.nodup, ha.listed, ha.waiting, ha.called⟩

theorem inv_seen {sig : Signal} {id : ServiceId} {k : Cont} (hg : Good t s)
    (ha : At t s (.seen sig id k)) {o : Outcome} (hpc : s.pc = .seen sig id k)
    (hst : mainStep t s o = some s') : Inv t s' := by
  obtain ⟨hk, hc⟩ := ha.cont (.inr rfl)
  rcases seen_cases hpc hst with rfl | ⟨-, -, ⟨-, rfl⟩ | rfl⟩
  · exact hg.finished hc hk
  · exact ⟨(hg.forget id).congr rfl rfl fun _ hx => hx, .idle rfl rfl rfl rfl⟩
  · exact hg.answered hc hk o

theorem inv_remove {shut : List ServiceId} (hg : Good t s) (ha : At t s (.remove shut)) {o : Outcome}
    (hpc : s.pc = .remove shut) (hst : mainStep t s o = some s') : Inv t s' := by
  cases shut with
  | nil =>
    simp only [mainStep, hpc] at hst
    cases hst
    exact ⟨hg.congr rfl rfl fun _ hx => hx, .idle rfl rfl rfl rfl⟩
  | cons id shut =>
    have hid := ha.shut id List.mem_cons_self
    have hnd : (id :: shut).Nodup := by
      have : ((id :: shut) ++ []).Nodup := ha.nodup
      rwa [List.append_nil] at this
    simp only [mainStep, hpc] at hst
    split at hst
    · cases hst
      refine ⟨hg.delete hid, fun x hx => ha.shut x (List.mem_cons_of_mem _ hx), ?_, fun x hx => ?_, ?_, ?_⟩
      · show (shut ++ []).Nodup
        rw [List.append_nil]; exact (List.nodup_cons.mp hnd).2
      · have hx' : x ∈ shut ++ [] := hx
        rw [List.append_nil] at hx'
        have hne : x ≠ id := fun h => (List.nodup_cons.mp hnd).1 (h ▸ hx')
        have hin := ha.listed x (List.mem_append_left _ (List.mem_cons_of_mem _ hx'))
        unfold keys OrdMap.keys at hin ⊢
        obtain ⟨e, he, rfl⟩ := List.mem_map.mp hin
        exact List.mem_map_of_mem (List.mem_filter.mpr ⟨he, by simpa using hne⟩)
      · intro x hx; cases hx
      · intro _ _ hc; cases hc
    · cases hst
      exact ⟨hg.congr rfl rfl fun _ hx => hx, .idle rfl rfl rfl rfl⟩

theorem inv_gather {todo waiting : List ServiceId} (hg : Good t s)
    (ha : At t s (.gather todo waiting)) {o : Outcome} (hpc : s.pc = .gather todo waiting)
    (hst : mainStep t s o = some s') : Inv t s' := by
  cases todo with
  | nil =>
    simp only [mainStep, hpc] at hst
    cases hst
    refine ⟨hg.congr rfl rfl fun _ hx => hx, ?_, List.nodup_nil, ?_, ha.waiting, ?_⟩
    · intro x hx; cases hx
    · intro x hx; cases hx
    · intro _ _ hc; cases hc
  | cons id todo =>
    have hnext : At t s (.gather todo waiting) :=
      ⟨ha.shut, (List.nodup_cons.mp ha.nodup).2, fun x hx => ha.listed x (List.mem_cons_of_mem _ hx),
        ha.waiting, fun _ _ hc => by cases hc⟩
    simp only [mainStep, hpc] at hst
    split at hst
    · cases hst
      exact ⟨(hg.forget id).congr rfl rfl fun _ hx => hx, hnext.congr rfl fun _ he => he⟩
    · split at hst
      · rename_i hel
        cases hst
        refine ⟨hg.congr rfl rfl fun _ hx => hx, hnext.shut, hnext.nodup, hnext.listed, fun x hx => ?_,
          hnext.called⟩
        have hx' : x ∈ waiting ++ [id] := hx
        rcases List.mem_append.mp hx' with hw | hw
        · exact ha.waiting x hw
        · rw [List.mem_singleton] at hw
          subst hw
          exact ⟨ha.listed x List.mem_cons_self, hel⟩
      · cases hst
        exact ⟨hg.congr rfl rfl fun _ hx => hx, hnext.congr rfl fun _ he => he⟩

theorem inv_forced {todo : List ServiceId} (hg : Good t s) (ha : At t s (.forced todo)) {o : Outcome}
    (hpc : s.pc = .forced todo) (hst : mainStep t s o = some s') : Inv t s' := by
  cases todo with
  | nil =>
    simp only [mainStep, hpc] at hst
    cases hst
    exact ⟨hg.congr rfl rfl fun _ hx => hx, .idle rfl rfl rfl rfl⟩
  | cons id todo =>
    have hnext : At t s (Cont.forced todo).pc :=
      ⟨ha.shut, ha.nodup, ha.listed, fun x hx => ha.waiting x (List.mem_cons_of_mem _ hx),
        fun _ _ hc => by cases hc⟩
    simp only [mainStep, hpc] at hst
    split at hst
    · cases hst
      exact ⟨hg.callDue (ha.waiting id List.mem_cons_self).2, hnext.callDue⟩
    · cases hst
      exact ⟨hg.congr rfl rfl fun _ hx => hx, .idle rfl rfl rfl rfl⟩

/-- **One step of the main thread.** -/
theorem inv_mainStep (h : Inv t s) {o : Outcome} (hst : mainStep t s o = some s') : Inv t s' := by
  obtain ⟨hg, ha⟩ := h
  have hidle : ∀ pc : Pc, pc.shut = [] → pc.todo = [] → pc.waiting = [] → pc.call = none →
      Inv t { s with pc := pc } :=
    fun pc h1 h2 h3 h4 => ⟨hg.congr rfl rfl fun _ hx => hx, .idle h1 h2 h3 h4⟩
  cases hpc : s.pc with
  | loop =>
    simp only [mainStep, hpc] at hst
    split at hst
    · cases hst; exact hidle .returned rfl rfl rfl rfl
    · cases hst
      refine ⟨hg.congr rfl rfl fun _ hx => hx, ?_, hg.nodup, fun x hx => hx, ?_, ?_⟩
      · intro x hx; cases hx
      · intro x hx; cases hx
      · intro _ _ hc; cases hc
  | scan todo shut =>
    rw [hpc] at ha
    cases todo with
    | nil =>
      simp only [mainStep, hpc] at hst
      cases hst
      exact ⟨hg.congr rfl rfl fun _ hx => hx, ha.shut, ha.nodup, ha.listed, ha.waiting,
        fun _ _ hc => by cases hc⟩
    | cons id todo => exact inv_scan hg ha hpc hst
  | calling sig id k => rw [hpc] at ha; exact inv_calling hg ha hpc hst
  | seen sig id k => rw [hpc] at ha; exact inv_seen hg ha hpc hst
  | remove shut => rw [hpc] at ha; exact inv_remove hg ha hpc hst
  | sleep => simp only [mainStep, hpc] at hst; cases hst; exact hidle .loop rfl rfl rfl rfl
  | gather todo waiting => rw [hpc] at ha; exact inv_gather hg ha hpc hst
  | sleep5 waiting => simp only [mainStep, hpc] at hst; cases hst; exact hidle .loop rfl rfl rfl rfl
  | forced todo => rw [hpc] at ha; exact inv_forced hg ha hpc hst
  | returned => simp only [mainStep, hpc] at hst; cases hst
  | raised => simp only [mainStep, hpc] at hst; cases hst

/-- Where an interrupt leads: to the handler, to the forced path, or out. -/
theorem interruptTo_cases {pc : Pc} (h : s.interruptTo = some pc) :
    pc = .gather s.keys [] ∨ (∃ waiting, s.pc = .sleep5 waiting ∧ pc = .forced waiting) ∨
      pc = .raised := by
  unfold interruptTo at h
  cases hpc : s.pc with
  | scan todo shut => rw [hpc] at h; cases h; exact .inl rfl
  | remove shut => rw [hpc] at h; cases h; exact .inl rfl
  | sleep => rw [hpc] at h; cases h; exact .inl rfl
  | calling sig id k => rw [hpc] at h; cases k <;> cases h <;> simp
  | seen sig id k => rw [hpc] at h; cases k <;> cases h <;> simp
  | sleep5 waiting => rw [hpc] at h; cases h; exact .inr (.inl ⟨waiting, rfl, rfl⟩)
  | loop => rw [hpc] at h; cases h; exact .inr (.inr rfl)
  | gather todo waiting => rw [hpc] at h; cases h; exact .inr (.inr rfl)
  | forced todo => rw [hpc] at h; cases h; exact .inr (.inr rfl)
  | returned => rw [hpc] at h; cases h
  | raised => rw [hpc] at h; cases h

/-- **A KeyboardInterrupt**, wherever it is delivered. -/
theorem inv_interruptTo (h : Inv t s) {pc : Pc} (hst : s.interruptTo = some pc) :
    Inv t { s with pc := pc } := by
  obtain ⟨hg, ha⟩ := h
  refine ⟨hg.congr rfl rfl fun _ hx => hx, ?_⟩
  rcases interruptTo_cases hst with rfl | ⟨waiting, hpc, rfl⟩ | rfl
  · refine ⟨?_, hg.nodup, fun x hx => hx, ?_, ?_⟩
    · intro x hx; cases hx
    · intro x hx; cases hx
    · intro _ _ hc; cases hc
  · rw [hpc] at ha
    exact ⟨ha.shut, ha.nodup, ha.listed, ha.waiting, fun _ _ hc => by cases hc⟩
  · exact .idle rfl rfl rfl rfl

theorem inv_inductive (t : Testbed) : (shutDown t).Inductive (Inv t) := by
  refine ⟨fun s h => ?_, fun s l s' h hst => ?_⟩
  · obtain ⟨hs, hpc, hlog⟩ := h
    have hk : s.keys = t.ids := by
      unfold keys OrdMap.keys
      rw [hs, List.map_map]
      exact List.map_id _
    refine ⟨⟨?_, fun x hx hn => ?_, fun x hx => ?_, ?_, fun e he sig hsig => ?_⟩, ?_⟩
    · rw [hlog]; exact .nil
    · rw [hk] at hn; exact absurd hx hn
    · rw [hlog] at hx; cases hx
    · rw [hk]; exact t.nodup
    · rw [hs] at he
      obtain ⟨id, -, rfl⟩ := List.mem_map.mp he
      cases hsig
    · rw [hpc]; exact .idle rfl rfl rfl rfl
  · simp only [shutDown, LTS.ofFn] at hst
    cases l with
    | main o => exact inv_mainStep h hst
    | keyboardInterrupt =>
      simp only [step, Option.map_eq_some_iff] at hst
      obtain ⟨pc, hpc, rfl⟩ := hst
      exact inv_interruptTo h hpc
    | exit pid =>
      cases hst
      exact ⟨h.good.congr rfl rfl fun _ hx => hx, h.at_pc.congr rfl fun _ he => he⟩
    | write id state =>
      cases hst
      exact ⟨h.good.congr rfl rfl fun _ hx => hx, h.at_pc.congr rfl fun _ he => he⟩
    | clock time =>
      cases hst
      exact ⟨h.good.congr rfl rfl fun _ hx => hx, h.at_pc.congr rfl fun _ he => he⟩
    | poll id =>
      simp only [step] at hst
      split at hst
      · cases hst; exact ⟨h.good.forget id, h.at_pc.forget id⟩
      · cases hst; exact h

end ShutDown

open ShutDown

/-- **Signals in order.** Whenever processes exit and wherever
`KeyboardInterrupt`s are delivered, a service is only sent a signal after each
service that depends on it was seen to have no process, and it has none from
then on. So the safety service outlives all services that require safety. -/
theorem signals_in_order (t : Testbed) (s : ShutDown) (h : (shutDown t).Reachable s) :
    (∀ l₁ sig id l₂, s.log = l₁ ++ .signal sig id :: l₂ → ∀ x ∈ t.dependedOnBy id, .gone x ∈ l₁) ∧
    (∀ l₁ sig safety l₂, t.config.safety = some safety → s.log = l₁ ++ .signal sig safety :: l₂ →
      ∀ e ∈ t.config.services, e.2.requires_safety = some true → .gone e.1 ∈ l₁) ∧
    ∀ x, .gone x ∈ s.log → s.process_id x = none := by
  have hg := ((inv_inductive t).reachable s h).good
  have horder : ∀ l₁ sig id l₂, s.log = l₁ ++ .signal sig id :: l₂ →
      ∀ x ∈ t.dependedOnBy id, .gone x ∈ l₁ := by
    intro l₁ sig id l₂ hlog x hx
    refine hg.justified l₁ _ l₂ hlog (.gone x) ?_
    cases sig <;> exact hx
  refine ⟨horder, fun l₁ sig safety l₂ hsafety hlog e he hr => ?_, hg.noProcess⟩
  exact horder l₁ sig safety l₂ hlog e.1 ((t.mem_dependedOnBy _ _).mpr ⟨e, he, rfl, .inr ⟨hr, hsafety⟩⟩)

/-! ## A deformable mirror under a safety monitor -/

def dmId : ServiceId := ascii "bmc_dm"
def safetyId : ServiceId := ascii "safety"

def mirrorConfig : TestbedConfig where
  services := [(safetyId, ⟨ascii "safety_monitor", none, [], some false⟩),
    (dmId, ⟨ascii "bmc_dm", none, [], some true⟩)]
  safety := some safetyId
  service_paths := []
  isSimulated := false

def mirrorTestbed : Testbed := ⟨mirrorConfig, by decide, _, rfl⟩

/-- Both services run. -/
def bothRunning : ShutDown :=
  ⟨fun id => if id = dmId then some 1 else if id = safetyId then some 2 else none, fun _ => true,
    fun _ => .RUNNING, 0, [(safetyId, .alive, 0), (dmId, .alive, 0)], .loop, []⟩

theorem bothRunning_init : bothRunning.init mirrorTestbed := ⟨rfl, rfl, rfl⟩

/-- The mirror exits first, and then the monitor is stopped. -/
def inTurn : List ShutDownStep :=
  .exit 1 :: List.replicate 9 (.main .ok)

theorem signals_in_order_safety : ∃ s : ShutDown, ∃ l₁ l₂,
    s.log = l₁ ++ .signal .stop safetyId :: l₂ ∧ .gone dmId ∈ l₁ := by
  obtain ⟨s, hs, hlog⟩ : ∃ s, LTS.exec (step mirrorTestbed) bothRunning inTurn = some s ∧
      s.log = [.gone dmId, .signal .stop safetyId] := ⟨_, rfl, by decide⟩
  refine ⟨s, [.gone dmId], [], hlog, ?_⟩
  exact (signals_in_order mirrorTestbed s (.of_exec bothRunning_init hs)).2.1
    _ .stop safetyId _ rfl hlog _ (List.mem_cons_of_mem _ List.mem_cons_self) rfl

end Catkit2.L4
