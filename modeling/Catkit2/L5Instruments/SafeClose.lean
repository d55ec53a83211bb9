import Catkit2.L4Testbed.ServiceRun
import Mathlib.Algebra.Ring.Int.Defs
import Mathlib.Logic.Function.Basic

/-!
# Devices that are off when their service is closed (thorlabs_mcls1.py, nkt_superk.py, aimtti_plp_device.py)

These services have a thread for each stream of setpoints, which takes the newest frame
and sets it on the device. `close` sets the device to zero and joins the threads. The power
supply joins first; the two lasers set the emission to zero first, while the thread of the
emission may have a frame in its hands.

The service runs `ServiceRun`, with the operations of `close` in place. A step is one
operation on the device, one look at a flag or at a stream. The lock of a device, or its pool
of one worker, makes each setter one operation. What only reads the device is left out. A
thread that is started is at once among those that `close` joins: no interrupt comes between
`Thread.start` and the entry in the table of threads.

* `inv_step`, `off_step`: what is joined stays ended, and what is off stays off.
* `supply_off`: the power supply is off when its service has ended, or `close` raised.
* `laser_off`: so are the lasers, unless a thread still has a frame when `close` begins.
* `laser_left_on`: a run in which it has.
-/
namespace Catkit2.L5.SafeClose

open Catkit2.L4 Catkit2.L4.ServiceRun

variable {κ ν : Type}

/-! ## The services -/

inductive CloseOp (κ ν : Type) where
  | set (key : κ) (value : ν)
  | join (key : κ)

/-- The method that starts the threads. -/
inductive Starts where
  | inOpen | inMain

/-- `streams` are the setpoints with a thread. `catches` says whether the loop of a thread
goes on when its setter raised. -/
structure Device (κ ν : Type) where
  streams : List κ
  starts : Starts
  catches : Bool
  close : List (CloseOp κ ν)

def Device.startsAt (D : Device κ ν) (run : RunAt) : Bool :=
  match D.starts, run with
  | .inOpen, .opening | .inMain, .main => true
  | _, _ => false

/-- mirrors catkit2/services/thorlabs_mcls1/thorlabs_mcls1.py:136-155, 171-177 and
catkit2/services/nkt_superk/nkt_superk.py:133-172 -/
def laser [Zero ν] (streams : List κ) (emission : κ) : Device κ ν where
  streams := streams
  starts := .inOpen
  catches := false
  close := .set emission 0 :: streams.map .join

inductive Mcls1 where
  | emission | current_setpoint | target_temperature
  deriving DecidableEq

def thorlabs_mcls1 [Zero ν] : Device Mcls1 ν := laser [.emission, .current_setpoint, .target_temperature] .emission

inductive Superk where
  | nd_setpoint | swp_setpoint | lwp_setpoint | emission | power_setpoint | current_setpoint
  deriving DecidableEq

def nkt_superk [Zero ν] : Device Superk ν :=
  laser [.nd_setpoint, .swp_setpoint, .lwp_setpoint, .emission, .power_setpoint, .current_setpoint] .emission

/-- What is set on a channel of the power supply; the output is not set by a stream. -/
inductive Supply (ι : Type) where
  | voltage (channel : ι)
  | current (channel : ι)
  | output (channel : ι)
  deriving DecidableEq

/-- Each name has a channel of its own.
mirrors catkit2/services/aimtti_plp_device/aimtti_plp_device.py:46-57, 94-102 -/
def aimtti_plp_device {ι : Type} [Zero ν] (channels : List ι) : Device (Supply ι) ν where
  streams := channels.flatMap fun c => [.voltage c, .current c]
  starts := .inMain
  catches := true
  close := (channels.flatMap fun c => [.join (.voltage c), .join (.current c)]) ++
    channels.flatMap fun c => [.set (.voltage c) 0, .set (.current c) 0, .set (.output c) 0]

/-! ## The threads -/

/-- Where the thread of a stream is: at the test of its loop, in `get_next_frame`, or with a
frame in its hands. -/
inductive MonitorAt (ν : Type) where
  | unstarted
  | test
  | waiting
  | taken (value : ν)
  | ended

namespace MonitorAt

/-- It does not set anything any more, once the service is told to shut down. -/
def quiet : MonitorAt ν → Bool
  | .unstarted | .test | .ended => true
  | .waiting | .taken _ => false

def gone : MonitorAt ν → Bool
  | .unstarted | .ended => true
  | _ => false

theorem quiet_of_gone {m : MonitorAt ν} (h : m.gone = true) : m.quiet = true := by
  cases m <;> simp_all [gone, quiet]

end MonitorAt

/-- What comes of a setter: one that returns has set the value. -/
inductive SetOutcome where
  | sets
  | raises (written : Bool)

def SetOutcome.written : SetOutcome → Bool
  | .sets => true
  | .raises written => written

def SetOutcome.raised : SetOutcome → Bool
  | .sets => false
  | .raises _ => true

/-- `unread` is the newest frame of each stream, until its thread takes it. `did` and `todo`
are the operations of `close`, which is over when nothing is to do or it raised. -/
structure World (κ ν : Type) where
  service : ServiceRun.State
  monitor : κ → MonitorAt ν
  unread : κ → Option ν
  device : κ → Option ν
  did : List (CloseOp κ ν)
  todo : List (CloseOp κ ν)
  raised : Bool

inductive Step (κ ν : Type) where
  | service (l : ServiceRun.Step)
  | start (key : κ)
  | submit (key : κ) (value : ν)
  | look (key : κ)
  | take (key : κ)
  | timeOut (key : κ)
  | apply (key : κ) (outcome : SetOutcome)
  | close (outcome : SetOutcome)

namespace World

variable [DecidableEq κ] (D : Device κ ν) (b : Behaviour)

def new (D : Device κ ν) : World κ ν where
  service := .new
  monitor _ := .unstarted
  unread _ := none
  device _ := none
  did := []
  todo := D.close
  raised := false

/-- `Run` goes on after `Close` has returned or thrown. -/
def goesOn (w : World κ ν) : ServiceRun.Step → Bool
  | .run _ _ =>
    match w.service.run with
    | .closing _ => w.todo.isEmpty || w.raised
    | _ => true
  | _ => true

def goto (w : World κ ν) (key : κ) (m : MonitorAt ν) : World κ ν :=
  { w with monitor := Function.update w.monitor key m }

def put (w : World κ ν) (key : κ) (value : ν) (written : Bool) : World κ ν :=
  { w with device := if written then Function.update w.device key (some value) else w.device }

/-- mirrors the bodies of `close` of the three services -/
def closeStep (w : World κ ν) (outcome : SetOutcome) : Option (World κ ν) :=
  match w.service.run, w.raised, w.todo with
  | .closing _, false, .set key value :: rest =>
    some { w.put key value outcome.written with
      did := w.did ++ [.set key value], todo := rest, raised := outcome.raised }
  | .closing _, false, .join key :: rest =>
    if (w.monitor key).gone then some { w with did := w.did ++ [.join key], todo := rest } else none
  | _, _, _ => none

/-- mirrors thorlabs_mcls1.py:85-95, nkt_superk.py:213-223, aimtti_plp_device.py:66-92 -/
def step (w : World κ ν) : Step κ ν → Option (World κ ν)
  | .service l => if w.goesOn l then (w.service.step b l).map fun s => { w with service := s } else none
  | .start key =>
    match w.monitor key with
    | .unstarted => if D.startsAt w.service.run ∧ key ∈ D.streams then some (w.goto key .test) else none
    | _ => none
  | .submit key value => some { w with unread := Function.update w.unread key (some value) }
  | .look key =>
    match w.monitor key with
    | .test => some (w.goto key (if w.service.shouldShutDown then .ended else .waiting))
    | _ => none
  | .take key =>
    match w.monitor key, w.unread key with
    | .waiting, some value => some { w.goto key (.taken value) with unread := Function.update w.unread key none }
    | _, _ => none
  | .timeOut key =>
    match w.monitor key with
    | .waiting => some (w.goto key .test)
    | _ => none
  | .apply key outcome =>
    match w.monitor key with
    | .taken value =>
      some ((w.put key value outcome.written).goto key (if outcome.raised && !D.catches then .ended else .test))
    | _ => none
  | .close outcome => w.closeStep outcome

end World

def safeClose [DecidableEq κ] (D : Device κ ν) (b : Behaviour) : LTS (World κ ν) (Step κ ν) := .ofFn (· = .new D) (World.step D b)

/-! ## What `close` has set -/

section

variable [DecidableEq κ]

/-- The value that was set last. -/
def lastSet (key : κ) : List (CloseOp κ ν) → Option ν
  | [] => none
  | .set key' value :: ops => (lastSet key ops).or (if key' = key then some value else none)
  | .join _ :: ops => lastSet key ops

theorem lastSet_append (key : κ) (ops ops' : List (CloseOp κ ν)) :
    lastSet key (ops ++ ops') = (lastSet key ops').or (lastSet key ops) := by
  induction ops with
  | nil => simp [lastSet]
  | cons op ops ih =>
    cases op with
    | set key' value => simp only [List.cons_append, lastSet, ih, Option.or_assoc]
    | join key' => simp only [List.cons_append, lastSet, ih]

/-- The thread is joined before its setpoint is set. -/
def joinedFirst (key : κ) : List (CloseOp κ ν) → Bool
  | [] => true
  | .set key' _ :: ops => key' ≠ key && joinedFirst key ops
  | .join key' :: ops => key' = key || joinedFirst key ops

theorem mem_of_lastSet {key : κ} {value : ν} {ops : List (CloseOp κ ν)} (h : lastSet key ops = some value) :
    .set key value ∈ ops := by
  induction ops with
  | nil => cases h
  | cons op ops ih =>
    cases op with
    | join key' => exact List.mem_cons_of_mem _ (ih h)
    | set key' v =>
      simp only [lastSet, Option.or_eq_some_iff] at h
      obtain h | ⟨-, h⟩ := h
      · exact List.mem_cons_of_mem _ (ih h)
      · split at h
        · rename_i hkey
          cases h
          exact hkey ▸ List.mem_cons_self
        · cases h

theorem lastSet_eq {key : κ} {value : ν} {ops : List (CloseOp κ ν)} (hmem : .set key value ∈ ops)
    (hall : ∀ v, .set key v ∈ ops → v = value) : lastSet key ops = some value := by
  induction ops with
  | nil => cases hmem
  | cons op ops ih =>
    have hrest : ∀ v, .set key v ∈ ops → v = value := fun v hv => hall v (List.mem_cons_of_mem _ hv)
    cases op with
    | join key' =>
      obtain hmem | hmem := List.mem_cons.mp hmem
      · cases hmem
      · exact ih hmem hrest
    | set key' v =>
      obtain hmem | hmem := List.mem_cons.mp hmem
      · cases hmem
        cases hlast : lastSet key ops with
        | none => simp [lastSet, hlast]
        | some v' => simp [lastSet, hlast, hrest v' (mem_of_lastSet hlast)]
      · simp [lastSet, ih hmem hrest]

theorem joinedFirst_append {key : κ} {ops : List (CloseOp κ ν)} (ops' : List (CloseOp κ ν))
    (hjoin : .join key ∈ ops) (hset : ∀ v, .set key v ∉ ops) : joinedFirst key (ops ++ ops') = true := by
  induction ops with
  | nil => cases hjoin
  | cons op ops ih =>
    have hrest : ∀ v, .set key v ∉ ops := fun v hv => hset v (List.mem_cons_of_mem _ hv)
    cases op with
    | set key' v =>
      have hne : key' ≠ key := fun he => hset v (he ▸ List.mem_cons_self)
      obtain hjoin | hjoin := List.mem_cons.mp hjoin
      · cases hjoin
      · simp [joinedFirst, hne, ih hjoin hrest]
    | join key' =>
      obtain hjoin | hjoin := List.mem_cons.mp hjoin
      · cases hjoin
        simp [joinedFirst]
      · simp [joinedFirst, ih hjoin hrest]

/-- What is set next was joined. -/
theorem joined_of_joinedFirst {key : κ} {value : ν} {did todo : List (CloseOp κ ν)}
    (h : joinedFirst key (did ++ .set key value :: todo) = true) : .join key ∈ did := by
  induction did with
  | nil => simp [joinedFirst] at h
  | cons op did ih =>
    cases op with
    | set key' value' =>
      simp only [List.cons_append, joinedFirst, Bool.and_eq_true] at h
      exact List.mem_cons_of_mem _ (ih h.2)
    | join key' =>
      simp only [List.cons_append, joinedFirst, Bool.or_eq_true, decide_eq_true_eq] at h
      obtain rfl | h := h
      · exact List.mem_cons_self
      · exact List.mem_cons_of_mem _ (ih h)

end

/-! ## Where the service is -/

section

variable {b : Behaviour} {s s' : ServiceRun.State}

/-- The shutdown flag is set. -/
def stopped : RunAt → Bool
  | .joinSafety _ | .joinHeartbeat _ | .joined _ | .closing _ | .closed _ | .lastBeat => true
  | _ => false

/-- `Close` has begun, or the service has ended. -/
def closes : RunAt → Bool
  | .closing _ | .closed _ | .lastBeat | .returned => true
  | _ => false

/-- `Close` was called and is over. -/
def Finished (s : ServiceRun.State) : Prop :=
  match s.run with
  | .closed _ | .lastBeat => True
  | .returned => .RUNNING ∈ s.states
  | _ => False

theorem runStep_stopped {safe : Bool} {timestamp : UInt64} (hs : s.runStep b safe timestamp = some s')
    (h : stopped s.run = true → s.shouldShutDown = true) (h' : stopped s'.run = true) : s'.shouldShutDown = true := by
  unfold State.runStep at hs
  split at hs <;> rename_i hrun <;> (try split at hs) <;> cases hs
  all_goals first
    | exact absurd h' Bool.false_ne_true
    | rfl
    | exact h (by rw [hrun]; rfl)

theorem runStep_closes {safe : Bool} {timestamp : UInt64} (hs : s.runStep b safe timestamp = some s')
    (h : closes s.run = true) : closes s'.run = true := by
  unfold State.runStep at hs
  split at hs <;> (try split at hs) <;> cases hs <;> simp_all [closes, State.write]

/-- `Run` that returns before it was RUNNING has not called `Close`. -/
theorem runStep_finished {safe : Bool} {timestamp : UInt64} (hi : ServiceRun.Inv b s)
    (hs : s.runStep b safe timestamp = some s') (h : Finished s') :
    (∃ crashed, s.run = .closing crashed) ∨ Finished s := by
  have hw := hi.written
  unfold State.runStep at hs
  generalize hat : s.run = run at hs hw
  cases run with
  | check =>
    have hnil : s.states = [] := hw
    dsimp only at hs
    split at hs <;> cases hs
    · simp [Finished, State.write, hnil] at h
    · exact h.elim
  | preCheck =>
    have hnil : s.states = [] := hw
    cases hs
    split at h
    · exact h.elim
    · simp [Finished, State.write, hnil] at h
  | opening =>
    have hopening : s.states = [.OPENING] := hw
    dsimp only at hs
    split at hs <;> cases hs
    · exact h.elim
    · simp [Finished, State.write, hopening] at h
  | opened | beat | spawnSafety | spawnHeartbeat | serving | main | stop crashed | joined crashed =>
    cases hs
    exact h.elim
  | joinSafety crashed | joinHeartbeat crashed =>
    dsimp only at hs
    split at hs <;> cases hs
    exact h.elim
  | closing crashed => exact .inl ⟨crashed, rfl⟩
  | closed crashed | lastBeat =>
    refine .inr ?_
    unfold Finished
    rw [hat]
    trivial
  | returned => cases hs

end

/-! ## The invariant -/

structure Inv (D : Device κ ν) (b : Behaviour) (w : World κ ν) : Prop where
  run : ServiceRun.Inv b w.service
  script : w.did ++ w.todo = D.close
  flag : stopped w.service.run = true → w.service.shouldShutDown = true
  began : w.did ≠ [] → closes w.service.run = true ∧ w.service.shouldShutDown = true
  joined : ∀ key, .join key ∈ w.did → (w.monitor key).gone = true
  unmonitored : ∀ key, key ∉ D.streams → w.monitor key = .unstarted
  finished : Finished w.service → w.todo = [] ∨ w.raised = true

/-- Once `close` has set it, the device has the value and keeps it. -/
def Off [DecidableEq κ] (key : κ) (w : World κ ν) : Prop :=
  ∀ value, lastSet key w.did = some value → w.raised = false →
    (w.monitor key).quiet = true ∧ w.device key = some value

variable {D : Device κ ν} {b : Behaviour} {w w' : World κ ν}

theorem inv_new (D : Device κ ν) (b : Behaviour) : Inv D b (.new D) where
  run := ServiceRun.inv_new b
  script := rfl
  flag h := by cases h
  began h := absurd rfl h
  joined _ h := by cases h
  unmonitored _ _ := rfl
  finished h := h.elim

/-- No thread starts once `close` has begun. -/
theorem startsAt_of_closes {run : RunAt} (h : closes run = true) : D.startsAt run = false := by
  unfold closes at h
  unfold Device.startsAt
  split at h <;> cases D.starts <;> simp_all

/-- What the steps of the threads have in common. -/
structure Moves (D : Device κ ν) (w w' : World κ ν) : Prop where
  service : w'.service = w.service
  did : w'.did = w.did
  todo : w'.todo = w.todo
  raised : w'.raised = w.raised
  unmonitored : ∀ key, key ∉ D.streams → w'.monitor key = w.monitor key
  gone : ∀ key, w.did ≠ [] → (w.monitor key).gone = true → (w'.monitor key).gone = true
  quiet : ∀ key, w.did ≠ [] → (w.monitor key).quiet = true →
    (w'.monitor key).quiet = true ∧ w'.device key = w.device key

theorem Inv.moves (hi : Inv D b w) (hm : Moves D w w') : Inv D b w' where
  run := hm.service ▸ hi.run
  script := by rw [hm.did, hm.todo]; exact hi.script
  flag := by rw [hm.service]; exact hi.flag
  began := by rw [hm.service, hm.did]; exact hi.began
  joined key h := by
    rw [hm.did] at h
    exact hm.gone key (List.ne_nil_of_mem h) (hi.joined key h)
  unmonitored key h := (hm.unmonitored key h).trans (hi.unmonitored key h)
  finished h := by
    rw [hm.service] at h
    rw [hm.todo, hm.raised]
    exact hi.finished h

variable [DecidableEq κ]

theorem Off.moves {key : κ} (hoff : Off key w) (hm : Moves D w w') : Off key w' := by
  intro value hlast hraised
  rw [hm.did] at hlast
  rw [hm.raised] at hraised
  obtain ⟨hquiet, hdevice⟩ := hoff value hlast hraised
  have hne : w.did ≠ [] := by
    intro hnil
    rw [hnil] at hlast
    cases hlast
  obtain ⟨hquiet', hdevice'⟩ := hm.quiet key hne hquiet
  exact ⟨hquiet', hdevice'.trans hdevice⟩

/-- One thread goes on. -/
theorem moves_goto {key : κ} {m : MonitorAt ν} (hservice : w'.service = w.service) (hdid : w'.did = w.did)
    (htodo : w'.todo = w.todo) (hraised : w'.raised = w.raised)
    (hmonitor : w'.monitor = Function.update w.monitor key m) (hkey : key ∈ D.streams)
    (hother : ∀ k, k ≠ key → w'.device k = w.device k)
    (hlive : w.did ≠ [] → (w.monitor key).gone = false)
    (hquiet : w.did ≠ [] → (w.monitor key).quiet = true → m.quiet = true ∧ w'.device key = w.device key) :
    Moves D w w' := by
  refine ⟨hservice, hdid, htodo, hraised, fun k hk => ?_, fun k hne h => ?_, fun k hne h => ?_⟩
  · have : k ≠ key := fun he => hk (he ▸ hkey)
    rw [hmonitor, Function.update_of_ne this]
  · obtain rfl | hkk := eq_or_ne k key
    · rw [hlive hne] at h
      cases h
    · rw [hmonitor, Function.update_of_ne hkk]
      exact h
  · obtain rfl | hkk := eq_or_ne k key
    · rw [hmonitor, Function.update_self]
      exact hquiet hne h
    · rw [hmonitor, Function.update_of_ne hkk]
      exact ⟨h, hother k hkk⟩

/-- A thread that runs is that of a stream. -/
theorem Inv.mem_streams (hi : Inv D b w) {key : κ} (h : w.monitor key ≠ .unstarted) : key ∈ D.streams := by
  by_contra hkey
  exact h (hi.unmonitored key hkey)

theorem moves_start (hi : Inv D b w) {key : κ} (hs : w.step D b (.start key) = some w') : Moves D w w' := by
  simp only [World.step] at hs
  split at hs
  · split at hs <;> cases hs
    rename_i hunstarted hstarts
    -- nothing starts any more once `close` has begun
    have hnil : w.did = [] := by
      by_contra hne
      rw [startsAt_of_closes (hi.began hne).1] at hstarts
      exact absurd hstarts.1 Bool.false_ne_true
    exact moves_goto rfl rfl rfl rfl rfl hstarts.2 (fun _ _ => rfl) (absurd hnil) (absurd hnil)
  · cases hs

theorem moves_look (hi : Inv D b w) {key : κ} (hs : w.step D b (.look key) = some w') : Moves D w w' := by
  simp only [World.step] at hs
  split at hs <;> cases hs
  rename_i htest
  refine moves_goto rfl rfl rfl rfl rfl (hi.mem_streams (by simp [htest])) (fun _ _ => rfl)
    (fun _ => by rw [htest]; rfl) fun hne _ => ⟨?_, rfl⟩
  rw [(hi.began hne).2]
  rfl

theorem moves_take (hi : Inv D b w) {key : κ} (hs : w.step D b (.take key) = some w') : Moves D w w' := by
  simp only [World.step] at hs
  split at hs <;> cases hs
  rename_i hwaiting _
  refine moves_goto rfl rfl rfl rfl rfl (hi.mem_streams (by simp [hwaiting])) (fun _ _ => rfl)
    (fun _ => by rw [hwaiting]; rfl) fun _ hquiet => ?_
  rw [hwaiting] at hquiet
  cases hquiet

theorem moves_timeOut (hi : Inv D b w) {key : κ} (hs : w.step D b (.timeOut key) = some w') : Moves D w w' := by
  simp only [World.step] at hs
  split at hs <;> cases hs
  rename_i hwaiting
  refine moves_goto rfl rfl rfl rfl rfl (hi.mem_streams (by simp [hwaiting])) (fun _ _ => rfl)
    (fun _ => by rw [hwaiting]; rfl) fun _ hquiet => ?_
  rw [hwaiting] at hquiet
  cases hquiet

theorem put_of_ne {key k : κ} (hne : k ≠ key) (value : ν) (written : Bool) :
    (w.put key value written).device k = w.device k := by
  unfold World.put
  split
  · exact Function.update_of_ne hne _ _
  · rfl

theorem moves_apply (hi : Inv D b w) {key : κ} {outcome : SetOutcome}
    (hs : w.step D b (.apply key outcome) = some w') : Moves D w w' := by
  simp only [World.step] at hs
  split at hs <;> cases hs
  rename_i value htaken
  refine moves_goto rfl rfl rfl rfl rfl (hi.mem_streams (by simp [htaken])) (fun k hk => put_of_ne hk _ _)
    (fun _ => by rw [htaken]; rfl) fun _ hquiet => ?_
  rw [htaken] at hquiet
  cases hquiet

/-! ## The steps of the service and of `close` -/

theorem inv_service (hi : Inv D b w) {l : ServiceRun.Step} (hs : w.step D b (.service l) = some w') : Inv D b w' := by
  simp only [World.step] at hs
  split at hs
  · rename_i hgoes
    obtain ⟨s', hstep, rfl⟩ := Option.map_eq_some_iff.mp hs
    clear hs
    refine ⟨ServiceRun.inv_step hi.run hstep, hi.script, ?_, ?_, hi.joined, hi.unmonitored, ?_⟩
    · obtain ⟨safe, timestamp, -, hrun⟩ | ⟨hrun, -, hdown⟩ := ServiceRun.step_run_or_thread hstep
      · exact runStep_stopped hrun hi.flag
      · exact fun h => hdown (hi.flag (hrun ▸ h))
    · intro hne
      obtain ⟨hcloses, hflag⟩ := hi.began hne
      obtain ⟨safe, timestamp, -, hrun⟩ | ⟨hrun, -, hdown⟩ := ServiceRun.step_run_or_thread hstep
      · exact ⟨runStep_closes hrun hcloses, ServiceRun.runStep_shouldShutDown hrun hflag⟩
      · exact ⟨by rw [hrun]; exact hcloses, hdown hflag⟩
    · intro hfinished
      obtain ⟨safe, timestamp, rfl, hrun⟩ | ⟨hrun, hstates, -⟩ := ServiceRun.step_run_or_thread hstep
      · obtain ⟨crashed, hclosing⟩ | hold := runStep_finished hi.run hrun hfinished
        · simpa [World.goesOn, hclosing] using hgoes
        · exact hi.finished hold
      · refine hi.finished ?_
        unfold Finished at hfinished ⊢
        rwa [hrun, hstates] at hfinished
  · cases hs

/-- Which operation of `close` was made, and what of it. -/
theorem closeStep_cases {outcome : SetOutcome} (hs : w.closeStep outcome = some w') :
    ∃ crashed, w.service.run = .closing crashed ∧ w.raised = false ∧
      ((∃ key value rest, w.todo = .set key value :: rest ∧
        w' = { w.put key value outcome.written with
          did := w.did ++ [.set key value], todo := rest, raised := outcome.raised }) ∨
      (∃ key rest, w.todo = .join key :: rest ∧ (w.monitor key).gone = true ∧
        w' = { w with did := w.did ++ [.join key], todo := rest })) := by
  unfold World.closeStep at hs
  split at hs
  · rename_i crashed key value rest hrun hraised htodo
    cases hs
    exact ⟨crashed, hrun, hraised, .inl ⟨key, value, rest, htodo, rfl⟩⟩
  · rename_i crashed key rest hrun hraised htodo
    split at hs <;> cases hs
    exact ⟨crashed, hrun, hraised, .inr ⟨key, rest, htodo, ‹_›, rfl⟩⟩
  · cases hs

theorem inv_close (hi : Inv D b w) {outcome : SetOutcome} (hs : w.closeStep outcome = some w') : Inv D b w' := by
  obtain ⟨crashed, hrun, -, hcases⟩ := closeStep_cases hs
  have hflag : w.service.shouldShutDown = true := hi.flag (by rw [hrun]; rfl)
  have hcloses : closes w.service.run = true := by
    rw [hrun]
    rfl
  have hnot : ¬ Finished w.service := by
    unfold Finished
    rw [hrun]
    exact id
  have hscript := hi.script
  obtain ⟨key, value, rest, htodo, rfl⟩ | ⟨key, rest, htodo, hgone, rfl⟩ := hcases
  · refine ⟨hi.run, ?_, hi.flag, fun _ => ⟨hcloses, hflag⟩, ?_, hi.unmonitored, ?_⟩
    · rw [htodo] at hscript
      simpa using hscript
    · intro k hk
      obtain hk | hk := List.mem_append.mp hk
      · exact hi.joined k hk
      · simp at hk
    · exact fun h => absurd h hnot
  · refine ⟨hi.run, ?_, hi.flag, fun _ => ⟨hcloses, hflag⟩, ?_, hi.unmonitored, ?_⟩
    · rw [htodo] at hscript
      simpa using hscript
    · intro k hk
      obtain hk | hk := List.mem_append.mp hk
      · exact hi.joined k hk
      · obtain rfl : k = key := by simpa using hk
        exact hgone
    · exact fun h => absurd h hnot

theorem inv_step (hi : Inv D b w) {l : Step κ ν} (hs : w.step D b l = some w') : Inv D b w' := by
  cases l with
  | service l => exact inv_service hi hs
  | start key => exact hi.moves (moves_start hi hs)
  | submit key value =>
    cases hs
    exact ⟨hi.run, hi.script, hi.flag, hi.began, hi.joined, hi.unmonitored, hi.finished⟩
  | look key => exact hi.moves (moves_look hi hs)
  | take key => exact hi.moves (moves_take hi hs)
  | timeOut key => exact hi.moves (moves_timeOut hi hs)
  | apply key outcome => exact hi.moves (moves_apply hi hs)
  | close outcome => exact inv_close hi hs

/-- The next step is that of `close` that sets `key`. -/
def sets (key : κ) (w : World κ ν) : Step κ ν → Bool
  | .close _ =>
    match w.todo with
    | .set key' _ :: _ => key' = key
    | _ => false
  | _ => false

theorem todo_of_sets {key : κ} {outcome : SetOutcome} (h : sets key w (.close outcome) = true) :
    ∃ value rest, w.todo = .set key value :: rest := by
  simp only [sets] at h
  split at h
  · rename_i key' value rest htodo
    exact ⟨value, rest, of_decide_eq_true h ▸ htodo⟩
  · cases h

/-- The step of `close` counts only if the thread does not come after it. -/
theorem off_step {key : κ} (hi : Inv D b w) (hoff : Off key w) {l : Step κ ν}
    (hquiet : sets key w l = true → (w.monitor key).quiet = true) (hs : w.step D b l = some w') : Off key w' := by
  cases l with
  | service l =>
    simp only [World.step] at hs
    split at hs
    · obtain ⟨s', -, rfl⟩ := Option.map_eq_some_iff.mp hs
      exact hoff
    · cases hs
  | start k => exact hoff.moves (moves_start hi hs)
  | submit k value =>
    cases hs
    exact hoff
  | look k => exact hoff.moves (moves_look hi hs)
  | take k => exact hoff.moves (moves_take hi hs)
  | timeOut k => exact hoff.moves (moves_timeOut hi hs)
  | apply k outcome => exact hoff.moves (moves_apply hi hs)
  | close outcome =>
    obtain ⟨crashed, -, hraised, ⟨k, value, rest, htodo, rfl⟩ | ⟨k, rest, htodo, -, rfl⟩⟩ := closeStep_cases hs
    · intro v hlast hraised'
      have hwritten : outcome.written = true := by
        cases outcome with
        | sets => rfl
        | raises written => cases hraised'
      simp only [lastSet_append, lastSet, Option.none_or] at hlast
      obtain rfl | hne := eq_or_ne k key
      · simp only [if_pos, Option.some_or, Option.some.injEq] at hlast
        subst hlast
        refine ⟨hquiet (by simp [sets, htodo]), ?_⟩
        simp [World.put, hwritten]
      · simp only [if_neg hne, Option.none_or] at hlast
        obtain ⟨hq, hdevice⟩ := hoff v hlast hraised
        exact ⟨hq, (put_of_ne hne.symm _ _).trans hdevice⟩
    · intro v hlast hraised'
      simp only [lastSet_append, lastSet, Option.none_or] at hlast
      exact hoff v hlast hraised'

theorem off_new (key : κ) : Off key (.new D) := by
  intro value h
  cases h

/-! ## Off at the end -/

/-- After a `close` that did not raise, all of it is done. -/
theorem Inv.off_of_finished {key : κ} {value : ν} (hi : Inv D b w) (hoff : Off key w)
    (hlast : lastSet key D.close = some value) (hfinished : Finished w.service) (hraised : w.raised = false) :
    w.device key = some value := by
  obtain htodo | htrue := hi.finished hfinished
  · have hscript := hi.script
    rw [htodo, List.append_nil] at hscript
    exact (hoff value (by rw [hscript]; exact hlast) hraised).2
  · rw [hraised] at htrue
    cases htrue

/-- A setpoint that is joined first, or has no thread. -/
theorem joined_off {key : κ} (hkey : joinedFirst key D.close = true ∨ key ∉ D.streams)
    (h : (safeClose D b).Reachable w) : Inv D b w ∧ Off key w := by
  have hind : (safeClose D b).Inductive fun w => Inv D b w ∧ Off key w := by
    refine ⟨fun w hw => ?_, fun w l w' hw hs => ⟨inv_step hw.1 hs, off_step hw.1 hw.2 (fun hsets => ?_) hs⟩⟩
    · rw [show w = .new D from hw]
      exact ⟨inv_new D b, off_new key⟩
    · cases l with
      | close outcome =>
        obtain ⟨value, rest, htodo⟩ := todo_of_sets hsets
        obtain hfirst | hfree := hkey
        · rw [← hw.1.script, htodo] at hfirst
          exact MonitorAt.quiet_of_gone (hw.1.joined key (joined_of_joinedFirst hfirst))
        · rw [hw.1.unmonitored key hfree]
          rfl
      | _ => cases hsets
  exact hind.reachable w h

/-- The power supply is off when `Close` is over, whatever came on its streams, and however
the service came to its end. -/
theorem supply_off {ι : Type} [DecidableEq ι] [Zero ν] {channels : List ι} {w : World (Supply ι) ν}
    (h : (safeClose (aimtti_plp_device channels) b).Reachable w) (hfinished : Finished w.service)
    (hraised : w.raised = false) : ∀ c ∈ channels,
      w.device (.voltage c) = some 0 ∧ w.device (.current c) = some 0 ∧ w.device (.output c) = some 0 := by
  intro c hc
  have hjoins : ∀ key v, (.set key v : CloseOp (Supply ι) ν) ∉
      channels.flatMap fun c => [.join (.voltage c), .join (.current c)] := by simp
  have hoff : ∀ key, (joinedFirst key (aimtti_plp_device (ν := ν) channels).close = true ∨
        key ∉ (aimtti_plp_device (ν := ν) channels).streams) →
      (.set key (0 : ν)) ∈ (aimtti_plp_device channels).close →
      (∀ v : ν, .set key v ∈ (aimtti_plp_device channels).close → v = 0) → w.device key = some 0 := by
    intro key hkey hmem hall
    obtain ⟨hi, hoff⟩ := joined_off hkey h
    exact hi.off_of_finished hoff (lastSet_eq hmem hall) hfinished hraised
  refine ⟨hoff _ (.inl ?_) ?_ ?_, hoff _ (.inl ?_) ?_ ?_, hoff _ (.inr ?_) ?_ ?_⟩
  · exact joinedFirst_append _ (by simpa using hc) (hjoins _)
  · simpa [aimtti_plp_device] using hc
  · simp [aimtti_plp_device]
  · exact joinedFirst_append _ (by simpa using hc) (hjoins _)
  · simpa [aimtti_plp_device] using hc
  · simp [aimtti_plp_device]
  · simp [aimtti_plp_device]
  · simpa [aimtti_plp_device] using hc
  · simp [aimtti_plp_device]

/-- From `Open` to `Close`, with the steps `before` while `Main` runs. -/
def mainReturnsAfter (before : List (Step κ ν)) : List (Step κ ν) :=
  List.replicate 6 (.service (.run true 1)) ++ before ++
    List.replicate 2 (.service (.run true 1)) ++ [.service (.safety true), .service (.heartbeat true 1)] ++
      List.replicate 3 (.service (.run true 1))

/-- A run of a supply with one channel that is set to 5. -/
def supplyRun : List (Step (Supply Unit) Int) :=
  List.replicate 2 (.service (.run true 1)) ++ mainReturnsAfter [.start (.voltage ()), .start (.current ()), .submit (.voltage ()) 5, .look (.voltage ()),
      .take (.voltage ()), .apply (.voltage ()) .sets] ++
    [.look (.voltage ()), .look (.current ())] ++ List.replicate 5 (.close .sets) ++
      List.replicate 3 (.service (.run true 1))

theorem supply_off_five : ∃ w : World (Supply Unit) Int, w.service.run = .returned ∧
    w.device (.voltage ()) = some 0 ∧ w.device (.output ()) = some 0 := by
  obtain ⟨w, hw, hrun, hstates, hraised⟩ : ∃ w : World (Supply Unit) Int,
      LTS.exec (World.step (aimtti_plp_device [()]) ⟨some true, .returns, .returns, .returns⟩)
        (.new (aimtti_plp_device [()])) supplyRun = some w ∧ w.service.run = .returned ∧
          .RUNNING ∈ w.service.states ∧ w.raised = false :=
    ⟨_, rfl, rfl, by decide, rfl⟩
  have hoff := supply_off (.of_exec rfl hw) (by simpa [Finished, hrun] using hstates) hraised () List.mem_cons_self
  exact ⟨w, hrun, hoff.1, hoff.2.2⟩

/-- When `close` sets the emission to zero, its thread has no frame, and is not waiting for one. -/
def Settled (emission : κ) (w : World κ ν) (l : Step κ ν) : Prop :=
  sets emission w l = true → (w.monitor emission).quiet = true

instance (emission : κ) (w : World κ ν) (l : Step κ ν) : Decidable (Settled emission w l) :=
  inferInstanceAs (Decidable (_ → _))

/-- The laser is on, and its thread sees the flag before `close` begins. -/
def laserRun : List (Step Mcls1 Int) :=
  List.replicate 2 (.service (.run true 1)) ++ [.start .emission] ++
    mainReturnsAfter [.submit .emission 1, .look .emission, .take .emission, .apply .emission .sets] ++
      [.look .emission] ++ List.replicate 4 (.close .sets) ++ List.replicate 3 (.service (.run true 1))

/-- The thread has taken a frame when `close` sets the emission to zero, and sets it
afterwards: the service is CLOSED and the laser is on. -/
theorem laser_left_on : ∃ w : World Mcls1 Int,
    (safeClose thorlabs_mcls1 ⟨some true, .returns, .returns, .returns⟩).Reachable w ∧ Finished w.service ∧
      w.raised = false ∧ w.service.states = [.OPENING, .RUNNING, .CLOSING, .CLOSED] ∧
        w.device .emission = some 1 := by
  obtain ⟨w, hw, hrun, hstates, hraised, hdevice⟩ : ∃ w : World Mcls1 Int,
      LTS.exec (World.step thorlabs_mcls1 ⟨some true, .returns, .returns, .returns⟩) (.new thorlabs_mcls1)
        (List.replicate 2 (.service (.run true 1)) ++ [.start .emission] ++
          mainReturnsAfter [.submit .emission 1, .look .emission] ++
            [.take .emission, .close .sets, .apply .emission .sets, .look .emission] ++
              List.replicate 3 (.close .sets) ++ List.replicate 3 (.service (.run true 1))) = some w ∧
        w.service.run = .returned ∧ w.service.states = [.OPENING, .RUNNING, .CLOSING, .CLOSED] ∧
          w.raised = false ∧ w.device .emission = some 1 :=
    ⟨_, rfl, rfl, rfl, rfl, rfl⟩
  exact ⟨w, .of_exec rfl hw, by simp [Finished, hrun, hstates], hraised, hstates, hdevice⟩

end Catkit2.L5.SafeClose
