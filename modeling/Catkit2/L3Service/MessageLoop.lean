import Catkit2.Core.LTS
import Mathlib.Data.List.Basic
import Mathlib.Logic.Function.Basic

/-!
# The loops that send traces and log entries (catkit_core/Tracing.cpp, catkit_core/LogForwarder.cpp)

`TracingProxy::MessageLoop` and `LogForwarder::MessageLoop` are the same
program but for the condition under which a send that timed out is tried
again (`tracingRetry`, `logRetry`). A thread runs the loop; any number of
threads queue events; one thread shuts the loop down: it sets the flag,
notifies and joins.

One step is one access to what the threads share: the mutex, the queue, the
flag, the condition variable, or one attempt to send. `wait` gives the mutex
back and waits in one step; it may return without a notification.

* `logForwarder_kept`: the loop of the log forwarder loses no event, keeps
  the order, and once the flag is set makes at most one more attempt.
* `tracingProxy_kept`: the loop of the tracing proxy does so in the runs in
  which no attempt times out but one that was going on when the flag was set.
-/
namespace Catkit2.L3.MessageLoop

variable {ι ε : Type}

/-! ## The threads -/

/-- Where the loop stands; the mutex is held from `empty` to `enterWait` and
from `empty` to `unlock`. -/
inductive Pc (ε : Type) where
  | head
  | lock
  | empty
  | flag
  | enterWait
  | waiting
  | relock
  | test
  | pop
  | unlock (next : Option ε)
  | send (e : ε)
  | sent (e : ε) (delivered : Bool)
  | done
  deriving DecidableEq, Repr

/-- Where a thread stands that adds an event. -/
inductive Producer (ε : Type) where
  | idle
  | locked (e : ε)
  | pushed
  | notified
  deriving DecidableEq, Repr

/-- Where the thread stands that shuts the loop down. -/
inductive Stopper where
  | idle
  | flagSet
  | joining
  | returned
  deriving DecidableEq, Repr

inductive Owner (ι : Type) where
  | consumer
  | producer (p : ι)
  deriving DecidableEq, Repr

/-- The last fields record what happened: the events queued, taken from the
queue and sent, the attempts made since the flag was set, and the steps the
loop took since. -/
structure State (ι ε : Type) where
  queue : List ε
  shutDown : Bool
  mutex : Option (Owner ι)
  consumer : Pc ε
  producers : ι → Producer ε
  stopper : Stopper
  enqueued : List ε
  dequeued : List ε
  delivered : List ε
  attempts : Nat
  steps : Nat

inductive Action (ι ε : Type) where
  | consumer
  | sendResult (delivered : Bool)
  | wakeUp
  | acquire (p : ι) (e : ε)
  | push (p : ι)
  | notify (p : ι)
  | release (p : ι)
  | setFlag
  | notifyAll
  | join

namespace State

def initial : State ι ε where
  queue := []
  shutDown := false
  mutex := none
  consumer := .head
  producers _ := .idle
  stopper := .idle
  enqueued := []
  dequeued := []
  delivered := []
  attempts := 0
  steps := 0

/-- A step of the loop to `pc`. -/
def goto (s : State ι ε) (pc : Pc ε) : State ι ε :=
  { s with consumer := pc, steps := if s.shutDown then s.steps + 1 else s.steps }

/-- `notify_all`: whoever waits goes on to take the mutex again. -/
def wake (s : State ι ε) : State ι ε :=
  { s with consumer := match s.consumer with | .waiting => .relock | pc => pc }

/-- The condition of `do ... while` after a time-out.
mirrors catkit_core/Tracing.cpp:205 -/
def tracingRetry (shutDown : Bool) : Bool := shutDown

/-- mirrors catkit_core/LogForwarder.cpp:90 -/
def logRetry (shutDown : Bool) : Bool := !shutDown

/-- A step of the loop, other than an attempt to send.
mirrors catkit_core/Tracing.cpp:174-208, catkit_core/LogForwarder.cpp:63-93 -/
def consumerStep (retry : Bool → Bool) (s : State ι ε) : Option (State ι ε) :=
  match s.consumer with
  | .head => some (s.goto (if s.shutDown then .done else .lock))
  | .lock | .relock =>
    match s.mutex with
    | none => some { s.goto .empty with mutex := some .consumer }
    | some _ => none
  | .empty =>
    match s.queue with
    | [] => some (s.goto .flag)
    | _ :: _ => some (s.goto .test)
  | .flag => some (s.goto (if s.shutDown then .test else .enterWait))
  | .enterWait => some { s.goto .waiting with mutex := none }
  | .test => some (s.goto (if s.shutDown then .unlock none else .pop))
  | .pop =>
    match s.queue with
    | [] => none
    | e :: queue => some { s.goto (.unlock (some e)) with queue := queue, dequeued := s.dequeued ++ [e] }
  | .unlock none => some { s.goto .done with mutex := none }
  | .unlock (some e) => some { s.goto (.send e) with mutex := none }
  | .sent e delivered =>
    if !delivered && retry s.shutDown then some (s.goto (.send e)) else some (s.goto .head)
  | .waiting | .send _ | .done => none

variable [DecidableEq ι]

/-- mirrors catkit_core/Tracing.h (AddTraceEvent), catkit_core/LogForwarder.cpp:46-49,
catkit_core/Tracing.cpp:45-55, catkit_core/LogForwarder.cpp:14-20,96-100 -/
def step (retry : Bool → Bool) (s : State ι ε) : Action ι ε → Option (State ι ε)
  | .consumer => s.consumerStep retry
  | .sendResult delivered =>
    match s.consumer with
    | .send e => some { s.goto (.sent e delivered) with
        delivered := if delivered then s.delivered ++ [e] else s.delivered
        attempts := if s.shutDown then s.attempts + 1 else s.attempts }
    | _ => none
  | .wakeUp =>
    match s.consumer with
    | .waiting => some s.wake
    | _ => none
  | .acquire p e =>
    match s.producers p, s.mutex with
    | .idle, none => some { s with
        mutex := some (.producer p), producers := Function.update s.producers p (.locked e) }
    | _, _ => none
  | .push p =>
    match s.producers p with
    | .locked e => some { s with
        queue := s.queue ++ [e], enqueued := s.enqueued ++ [e]
        producers := Function.update s.producers p .pushed }
    | _ => none
  | .notify p =>
    match s.producers p with
    | .pushed => some { s.wake with producers := Function.update s.producers p .notified }
    | _ => none
  | .release p =>
    match s.producers p with
    | .notified => some { s with mutex := none, producers := Function.update s.producers p .idle }
    | _ => none
  | .setFlag =>
    match s.stopper with
    | .idle => some { s with shutDown := true, stopper := .flagSet }
    | _ => none
  | .notifyAll =>
    match s.stopper with
    | .flagSet => some { s.wake with stopper := .joining }
    | _ => none
  | .join =>
    match s.stopper, s.consumer with
    | .joining, .done => some { s with stopper := .returned }
    | _, _ => none

end State

def system (ι ε : Type) [DecidableEq ι] (retry : Bool → Bool) : LTS (State ι ε) (Action ι ε) :=
  LTS.ofFn (fun s => s = .initial) (State.step retry)

/-! ## What a step of the loop does -/

/-- The steps that only take the loop from one place to another. -/
inductive Jump (retry : Bool → Bool) (s : State ι ε) : Pc ε → Pc ε → Prop where
  | start : s.shutDown = false → Jump retry s .head .lock
  | stop : s.shutDown = true → Jump retry s .head .done
  | noEvent : Jump retry s .empty .flag
  | event : s.queue ≠ [] → Jump retry s .empty .test
  | noFlag : s.shutDown = false → Jump retry s .flag .enterWait
  | flag : s.shutDown = true → Jump retry s .flag .test
  | take : s.shutDown = false → Jump retry s .test .pop
  | leave : s.shutDown = true → Jump retry s .test (.unlock none)
  | next (e : ε) : Jump retry s (.sent e true) .head
  | again (e : ε) : retry s.shutDown = true → Jump retry s (.sent e false) (.send e)
  | giveUp (e : ε) : retry s.shutDown = false → Jump retry s (.sent e false) .head

/-- The steps in which the loop gives the mutex back. -/
inductive Give : Pc ε → Pc ε → Prop where
  | wait : Give .enterWait .waiting
  | leave : Give (.unlock none) .done
  | send (e : ε) : Give (.unlock (some e)) (.send e)

theorem consumerStep_cases {retry : Bool → Bool} {s s' : State ι ε} (hs : s.consumerStep retry = some s') :
    (∃ pc, Jump retry s s.consumer pc ∧ s' = s.goto pc) ∨
    ((s.consumer = .lock ∨ s.consumer = .relock) ∧ s.mutex = none ∧
      s' = { s.goto .empty with mutex := some .consumer }) ∨
    (∃ pc, Give s.consumer pc ∧ s' = { s.goto pc with mutex := none }) ∨
    ∃ e queue, s.consumer = .pop ∧ s.queue = e :: queue ∧
      s' = { s.goto (.unlock (some e)) with queue := queue, dequeued := s.dequeued ++ [e] } := by
  cases hpc : s.consumer with
  | head =>
    simp only [State.consumerStep, hpc, Option.some.injEq] at hs
    split at hs
    · exact .inl ⟨_, .stop ‹_›, hs.symm⟩
    · exact .inl ⟨_, .start (by simpa using ‹¬ s.shutDown = true›), hs.symm⟩
  | lock =>
    simp only [State.consumerStep, hpc] at hs
    split at hs <;> cases hs
    exact .inr (.inl ⟨.inl rfl, ‹_›, rfl⟩)
  | relock =>
    simp only [State.consumerStep, hpc] at hs
    split at hs <;> cases hs
    exact .inr (.inl ⟨.inr rfl, ‹_›, rfl⟩)
  | empty =>
    simp only [State.consumerStep, hpc] at hs
    split at hs <;> cases hs
    · exact .inl ⟨_, .noEvent, rfl⟩
    · exact .inl ⟨_, .event (by simp [*]), rfl⟩
  | flag =>
    simp only [State.consumerStep, hpc, Option.some.injEq] at hs
    split at hs
    · exact .inl ⟨_, .flag ‹_›, hs.symm⟩
    · exact .inl ⟨_, .noFlag (by simpa using ‹¬ s.shutDown = true›), hs.symm⟩
  | enterWait =>
    simp only [State.consumerStep, hpc, Option.some.injEq] at hs
    exact .inr (.inr (.inl ⟨_, .wait, hs.symm⟩))
  | test =>
    simp only [State.consumerStep, hpc, Option.some.injEq] at hs
    split at hs
    · exact .inl ⟨_, .leave ‹_›, hs.symm⟩
    · exact .inl ⟨_, .take (by simpa using ‹¬ s.shutDown = true›), hs.symm⟩
  | pop =>
    simp only [State.consumerStep, hpc] at hs
    split at hs <;> cases hs
    exact .inr (.inr (.inr ⟨_, _, rfl, ‹_›, rfl⟩))
  | unlock next =>
    cases next with
    | none =>
      simp only [State.consumerStep, hpc, Option.some.injEq] at hs
      exact .inr (.inr (.inl ⟨_, .leave, hs.symm⟩))
    | some e =>
      simp only [State.consumerStep, hpc, Option.some.injEq] at hs
      exact .inr (.inr (.inl ⟨_, .send e, hs.symm⟩))
  | sent e delivered =>
    simp only [State.consumerStep, hpc] at hs
    cases delivered with
    | true =>
      simp only [Bool.not_true, Bool.false_and, Bool.false_eq_true, if_false, Option.some.injEq] at hs
      exact .inl ⟨_, .next e, hs.symm⟩
    | false =>
      simp only [Bool.not_false, Bool.true_and] at hs
      split at hs <;> cases hs
      · exact .inl ⟨_, .again e ‹_›, rfl⟩
      · exact .inl ⟨_, .giveUp e (by simpa using ‹¬ retry s.shutDown = true›), rfl⟩
  | waiting => simp [State.consumerStep, hpc] at hs
  | send e => simp [State.consumerStep, hpc] at hs
  | done => simp [State.consumerStep, hpc] at hs

/-! ## What the loop is to keep -/

/-- The event that was taken from the queue and is still to be sent. -/
def inHand : Pc ε → List ε
  | .unlock (some e) | .send e | .sent e false => [e]
  | _ => []

/-- Every event taken while the flag is not set has been sent, but the one in
hand; the events sent are the first of those queued, in order; since the flag
was set there was at most one more attempt, and few steps. -/
structure Kept (s : State ι ε) : Prop where
  none_lost : s.shutDown = false → s.dequeued = s.delivered ++ inHand s.consumer
  in_order : s.delivered <+: s.enqueued
  attempts_le : s.attempts ≤ 1
  steps_le : s.steps ≤ 7

/-- After a time-out the loop tries again only where there was no attempt
since the flag was set, and gives up only where it is set. -/
def Timely (retry : Bool → Bool) (s : State ι ε) (l : Action ι ε) : Prop :=
  l = .consumer → ∀ e, s.consumer = .sent e false →
    (retry s.shutDown = true → s.attempts = 0) ∧ (retry s.shutDown = false → s.shutDown = true)

/-- How many steps are left once the flag is set. -/
def stepsLeft (attempts : Nat) : Pc ε → Nat
  | .enterWait => 7
  | .waiting => 6
  | .lock | .relock => 5
  | .empty => 4
  | .flag => 3
  | .test => 2
  | .unlock none => 1
  | .pop => 5
  | .unlock (some _) => 4
  | .send _ => 3
  | .sent _ true => 2
  | .sent _ false => if attempts = 0 then 4 else 2
  | .head => 1
  | .done => 0

theorem stepsLeft_le (attempts : Nat) (pc : Pc ε) : stepsLeft attempts pc ≤ 7 := by
  cases pc with
  | unlock next => cases next <;> simp [stepsLeft]
  | sent e delivered =>
    cases delivered
    · simp only [stepsLeft]
      split <;> omega
    · simp [stepsLeft]
  | _ => simp [stepsLeft]

/-- An attempt was made since the flag was set: the loop is about to end. -/
def Ending : Pc ε → Prop
  | .sent _ _ | .head | .done => True
  | _ => False

structure Inv (s : State ι ε) : Prop where
  order : s.enqueued = s.dequeued ++ s.queue
  taken : s.dequeued = s.delivered ++ inHand s.consumer ∨
    s.shutDown = true ∧ (s.consumer = .head ∨ s.consumer = .done) ∧ s.delivered <+: s.dequeued
  unset : s.shutDown = false → s.attempts = 0 ∧ s.steps = 0
  once : s.attempts = 0 ∨ s.attempts = 1 ∧ Ending s.consumer
  steps : s.shutDown = true → s.steps + stepsLeft s.attempts s.consumer ≤ 7
  stock : (s.consumer = .test → s.queue ≠ [] ∨ s.shutDown = true) ∧ (s.consumer = .pop → s.queue ≠ [])

theorem Inv.kept {s : State ι ε} (h : Inv s) : Kept s where
  none_lost hs := by
    rcases h.taken with ht | ⟨ht, -⟩
    · exact ht
    · rw [ht] at hs
      cases hs
  in_order := by
    have hp : s.delivered <+: s.dequeued := by
      rcases h.taken with ht | ⟨-, -, ht⟩
      · rw [ht]
        exact List.prefix_append _ _
      · exact ht
    rw [h.order]
    exact hp.trans (List.prefix_append _ _)
  attempts_le := by
    rcases h.once with h0 | ⟨h1, -⟩ <;> omega
  steps_le := by
    cases hs : s.shutDown with
    | false =>
      have := (h.unset hs).2
      omega
    | true =>
      have := h.steps hs
      omega

/-- But where it has given up its event, the loop has in its hand what it took
and did not send. -/
theorem Inv.hand {s : State ι ε} (h : Inv s) (hhead : s.consumer ≠ .head) (hdone : s.consumer ≠ .done) :
    s.dequeued = s.delivered ++ inHand s.consumer := by
  rcases h.taken with ht | ⟨-, he | he, -⟩
  · exact ht
  · exact absurd he hhead
  · exact absurd he hdone

theorem Inv.no_attempt {s : State ι ε} (h : Inv s) (hend : ¬ Ending s.consumer) : s.attempts = 0 :=
  h.once.resolve_right fun h1 => hend h1.2

theorem goto_steps_unset (s : State ι ε) (pc : Pc ε) (h : s.shutDown = false) :
    (s.goto pc).steps = s.steps := if_neg (by simp [h])

theorem goto_steps_set (s : State ι ε) (pc : Pc ε) (h : s.shutDown = true) :
    (s.goto pc).steps = s.steps + 1 := if_pos h

/-! ## Each step -/

/-- A step of the loop between two points with the same event in hand. -/
theorem inv_goto {s : State ι ε} (h : Inv s) {pc : Pc ε} (hhand : inHand pc = inHand s.consumer)
    (hto : (s.consumer ≠ .head ∧ s.consumer ≠ .done) ∨ s.shutDown = false ∨ pc = .done)
    (honce : s.attempts = 0 ∨ (Ending s.consumer → Ending pc))
    (hleft : s.shutDown = true → stepsLeft s.attempts pc + 1 ≤ stepsLeft s.attempts s.consumer)
    (hstock : (pc = .test → s.queue ≠ [] ∨ s.shutDown = true) ∧ (pc = .pop → s.queue ≠ [])) :
    Inv (s.goto pc) where
  order := h.order
  taken := by
    show s.dequeued = s.delivered ++ inHand pc ∨ _
    rw [hhand]
    rcases h.taken with ht | ⟨ht, hend, hp⟩
    · exact .inl ht
    · rcases hto with ⟨h1, h2⟩ | hf | hdone
      · rcases hend with he | he
        · exact absurd he h1
        · exact absurd he h2
      · rw [hf] at ht
        cases ht
      · exact .inr ⟨ht, .inr hdone, hp⟩
  unset hs := by
    have hun := h.unset hs
    exact ⟨hun.1, (goto_steps_unset s pc hs).trans hun.2⟩
  once := by
    rcases h.once with h0 | ⟨h1, hend⟩
    · exact .inl h0
    · rcases honce with h0 | hpc
      · exact .inl h0
      · exact .inr ⟨h1, hpc hend⟩
  steps hs := by
    have h1 := h.steps hs
    have h2 := hleft hs
    rw [goto_steps_set s pc hs]
    show s.steps + 1 + stepsLeft s.attempts pc ≤ 7
    omega
  stock := hstock

/-- What the mutex, the other threads and the flag's writer are at plays no part. -/
theorem Inv.frame {s s' : State ι ε} (h : Inv s) (hq : s'.queue = s.queue) (hf : s'.shutDown = s.shutDown)
    (hc : s'.consumer = s.consumer) (he : s'.enqueued = s.enqueued) (hd : s'.dequeued = s.dequeued)
    (hs : s'.delivered = s.delivered) (ha : s'.attempts = s.attempts) (hst : s'.steps = s.steps) : Inv s' := by
  obtain ⟨h1, h2, h3, h4, h5, h6⟩ := h
  constructor
  · rw [he, hd, hq]; exact h1
  · rw [hd, hs, hc, hf]; exact h2
  · rw [hf, ha, hst]; exact h3
  · rw [ha, hc]; exact h4
  · rw [hf, hst, ha, hc]; exact h5
  · rw [hc, hq, hf]; exact h6

theorem wake_of_ne {s : State ι ε} (h : s.consumer ≠ .waiting) : s.wake = s := by
  unfold State.wake
  split
  · exact absurd ‹_› h
  · rfl

theorem Inv.wake {s : State ι ε} (h : Inv s) : Inv s.wake := by
  by_cases hw : s.consumer = .waiting
  · have hwake : s.wake = { s with consumer := .relock } := by simp [State.wake, hw]
    rw [hwake]
    refine ⟨h.order, ?_, h.unset, ?_, fun hs => ?_, ⟨fun hc => (by cases hc), fun hc => (by cases hc)⟩⟩
    · have hhand := h.hand (by simp [hw]) (by simp [hw])
      rw [hw] at hhand
      exact .inl hhand
    · exact .inl (h.no_attempt (by simp [hw, Ending]))
    · have := h.steps hs
      rw [hw] at this
      simp only [stepsLeft] at this ⊢
      omega
  · rw [wake_of_ne hw]
    exact h

/-- The event in hand is given up, and the loop ends. -/
theorem inv_giveUp {s : State ι ε} (h : Inv s) {e : ε} (hpc : s.consumer = .sent e false)
    (hf : s.shutDown = true) : Inv (s.goto .head) := by
  refine ⟨h.order, .inr ⟨hf, .inl rfl, ?_⟩, fun hno => ?_, ?_, fun _ => ?_, by simp [State.goto]⟩
  · rcases h.taken with htk | ⟨-, -, hp⟩
    · show s.delivered <+: s.dequeued
      rw [htk]
      exact List.prefix_append _ _
    · exact hp
  · rw [show s.shutDown = false from hno] at hf
    cases hf
  · exact h.once.imp_right fun h1 => ⟨h1.1, trivial⟩
  · have hleft := h.steps hf
    rw [hpc] at hleft
    rw [goto_steps_set s _ hf]
    show s.steps + 1 + 1 ≤ 7
    simp only [stepsLeft] at hleft
    split at hleft <;> omega

theorem inv_jump {retry : Bool → Bool} {s : State ι ε} {pc : Pc ε} (h : Inv s)
    (ht : Timely retry s .consumer) (hj : Jump retry s s.consumer pc) : Inv (s.goto pc) := by
  generalize hpc : s.consumer = here at hj
  cases hj with
  | start hf =>
    have h0 := (h.unset hf).1
    refine inv_goto h ?_ ?_ ?_ ?_ ?_ <;> simp [hpc, hf, h0, inHand]
  | stop hf => refine inv_goto h ?_ ?_ ?_ ?_ ?_ <;> simp [hpc, inHand, stepsLeft, Ending]
  | noEvent => refine inv_goto h ?_ ?_ ?_ ?_ ?_ <;> simp [hpc, inHand, stepsLeft, Ending]
  | event hq => refine inv_goto h ?_ ?_ ?_ ?_ ?_ <;> simp [hpc, hq, inHand, stepsLeft, Ending]
  | noFlag hf => refine inv_goto h ?_ ?_ ?_ ?_ ?_ <;> simp [hpc, hf, inHand, Ending]
  | flag hf => refine inv_goto h ?_ ?_ ?_ ?_ ?_ <;> simp [hpc, hf, inHand, stepsLeft, Ending]
  | take hf =>
    have hq : s.queue ≠ [] := (h.stock.1 hpc).resolve_right (by simp [hf])
    refine inv_goto h ?_ ?_ ?_ ?_ ?_ <;> simp [hpc, hf, hq, inHand, Ending]
  | leave hf => refine inv_goto h ?_ ?_ ?_ ?_ ?_ <;> simp [hpc, inHand, stepsLeft, Ending]
  | next e => refine inv_goto h ?_ ?_ ?_ ?_ ?_ <;> simp [hpc, inHand, stepsLeft, Ending]
  | again e hr =>
    have h0 := (ht rfl e hpc).1 hr
    refine inv_goto h ?_ ?_ (.inl h0) ?_ ?_
    all_goals simp [hpc, inHand, stepsLeft, h0]
  | giveUp e hr => exact inv_giveUp h hpc ((ht rfl e hpc).2 hr)

/-- An event goes from the queue into the hand. -/
theorem inv_pop {s : State ι ε} (h : Inv s) {e : ε} {queue : List ε} (hpc : s.consumer = .pop)
    (hq : s.queue = e :: queue) :
    Inv { s.goto (.unlock (some e)) with queue := queue, dequeued := s.dequeued ++ [e] } := by
  refine ⟨?_, ?_, fun hf => ?_, ?_, fun hf => ?_, by simp [State.goto]⟩
  · show s.enqueued = s.dequeued ++ [e] ++ queue
    rw [h.order, hq, List.append_assoc]
    rfl
  · left
    show s.dequeued ++ [e] = s.delivered ++ [e]
    rw [h.hand (by simp [hpc]) (by simp [hpc]), hpc]
    simp [inHand]
  · have hun := h.unset hf
    exact ⟨hun.1, (goto_steps_unset s (.unlock (some e)) hf).trans hun.2⟩
  · exact .inl (h.no_attempt (by simp [hpc, Ending]))
  · have hleft := h.steps hf
    rw [hpc] at hleft
    have hsteps : (s.goto (.unlock (some e))).steps = s.steps + 1 := goto_steps_set s _ hf
    show (s.goto (.unlock (some e))).steps + 4 ≤ 7
    simp only [stepsLeft] at hleft
    omega

/-- **A step of the loop.** -/
theorem inv_consumerStep {retry : Bool → Bool} {s s' : State ι ε} (h : Inv s)
    (ht : Timely retry s .consumer) (hs : s.consumerStep retry = some s') : Inv s' := by
  obtain ⟨pc, hj, rfl⟩ | ⟨hpc, -, rfl⟩ | ⟨pc, hg, rfl⟩ | ⟨e, queue, hpc, hq, rfl⟩ := consumerStep_cases hs
  · exact inv_jump h ht hj
  · have hgo : Inv (s.goto .empty) := by
      rcases hpc with hpc | hpc <;> refine inv_goto h ?_ ?_ ?_ ?_ ?_ <;>
        simp [hpc, inHand, stepsLeft, Ending]
    exact hgo.frame rfl rfl rfl rfl rfl rfl rfl rfl
  · have hgo : Inv (s.goto pc) := by
      generalize hpc : s.consumer = here at hg
      cases hg <;> refine inv_goto h ?_ ?_ ?_ ?_ ?_ <;> simp [hpc, inHand, stepsLeft, Ending]
    exact hgo.frame rfl rfl rfl rfl rfl rfl rfl rfl
  · exact inv_pop h hpc hq

theorem inv_sendResult {s : State ι ε} (h : Inv s) {e : ε} (hpc : s.consumer = .send e)
    (delivered : Bool) :
    Inv { s.goto (.sent e delivered) with
      delivered := if delivered then s.delivered ++ [e] else s.delivered
      attempts := if s.shutDown then s.attempts + 1 else s.attempts } := by
  have h0 : s.attempts = 0 := h.no_attempt (by simp [hpc, Ending])
  have hhand : s.dequeued = s.delivered ++ [e] := by
    rw [h.hand (by simp [hpc]) (by simp [hpc]), hpc]
    rfl
  refine ⟨h.order, .inl ?_, fun hf => ?_, ?_, fun hf => ?_, by simp [State.goto]⟩
  · show s.dequeued = (if delivered then s.delivered ++ [e] else s.delivered) ++ inHand (.sent e delivered)
    cases delivered <;> simp [inHand, hhand]
  · have hf : s.shutDown = false := hf
    simp [State.goto, hf, h0, (h.unset hf).2]
  · show (if s.shutDown then s.attempts + 1 else s.attempts) = 0 ∨
      (if s.shutDown then s.attempts + 1 else s.attempts) = 1 ∧ True
    rw [h0]
    cases s.shutDown <;> simp
  · have hf : s.shutDown = true := hf
    have hleft := h.steps hf
    rw [hpc] at hleft
    show (if s.shutDown then s.steps + 1 else s.steps) +
      stepsLeft (if s.shutDown then s.attempts + 1 else s.attempts) (.sent e delivered) ≤ 7
    simp only [hf, h0, if_true, stepsLeft] at hleft ⊢
    cases delivered <;> simp <;> omega

theorem inv_initial : Inv (.initial : State ι ε) where
  order := rfl
  taken := .inl rfl
  unset _ := ⟨rfl, rfl⟩
  once := .inl rfl
  steps h := by cases h
  stock := ⟨fun h => (by cases h), fun h => (by cases h)⟩

section

variable [DecidableEq ι] {retry : Bool → Bool}

/-- **Each step.** -/
theorem inv_step {s s' : State ι ε} {l : Action ι ε} (h : Inv s) (ht : Timely retry s l)
    (hs : State.step retry s l = some s') : Inv s' := by
  cases l with
  | consumer => exact inv_consumerStep h ht hs
  | sendResult delivered =>
    simp only [State.step] at hs
    split at hs
    · cases hs
      exact inv_sendResult h ‹_› delivered
    · cases hs
  | wakeUp =>
    simp only [State.step] at hs
    split at hs
    · cases hs
      exact h.wake
    · cases hs
  | acquire p e =>
    simp only [State.step] at hs
    split at hs
    · cases hs
      exact h.frame rfl rfl rfl rfl rfl rfl rfl rfl
    · cases hs
  | push p =>
    simp only [State.step] at hs
    split at hs
    · rename_i e _
      cases hs
      refine ⟨?_, h.taken, h.unset, h.once, h.steps, ⟨fun hc => ?_, fun _ => by simp⟩⟩
      · show s.enqueued ++ [e] = s.dequeued ++ (s.queue ++ [e])
        rw [h.order, List.append_assoc]
      · exact .inl (by simp)
    · cases hs
  | notify p =>
    simp only [State.step] at hs
    split at hs
    · cases hs
      exact h.wake.frame rfl rfl rfl rfl rfl rfl rfl rfl
    · cases hs
  | release p =>
    simp only [State.step] at hs
    split at hs
    · cases hs
      exact h.frame rfl rfl rfl rfl rfl rfl rfl rfl
    · cases hs
  | setFlag =>
    simp only [State.step] at hs
    split at hs
    · cases hs
      refine ⟨h.order, ?_, fun hf => (by cases hf), h.once, fun _ => ?_, ⟨fun _ => .inr rfl, h.stock.2⟩⟩
      · rcases h.taken with htk | ⟨hf, hend, hp⟩
        · exact .inl htk
        · exact .inr ⟨rfl, hend, hp⟩
      · cases hf : s.shutDown with
        | true =>
          have := h.steps hf
          exact this
        | false =>
          have hle := stepsLeft_le s.attempts s.consumer
          have hun := (h.unset hf).2
          show s.steps + stepsLeft s.attempts s.consumer ≤ 7
          omega
    · cases hs
  | notifyAll =>
    simp only [State.step] at hs
    split at hs
    · cases hs
      exact h.wake.frame rfl rfl rfl rfl rfl rfl rfl rfl
    · cases hs
  | join =>
    simp only [State.step] at hs
    split at hs
    · cases hs
      exact h.frame rfl rfl rfl rfl rfl rfl rfl rfl
    · cases hs

end

/-! ## The log forwarder -/

/-- The log forwarder tries again until the flag is set. -/
theorem logForwarder_timely {s : State ι ε} (h : Inv s) (l : Action ι ε) : Timely State.logRetry s l := by
  intro _ e _
  refine ⟨fun hr => ?_, fun hr => ?_⟩
  · simp only [State.logRetry, Bool.not_eq_true'] at hr
    exact (h.unset hr).1
  · simpa only [State.logRetry, Bool.not_eq_false'] using hr

/-- **The log forwarder** keeps every event and ends, in every run. -/
theorem logForwarder_kept [DecidableEq ι] {s : State ι ε}
    (h : (system ι ε State.logRetry).Reachable s) : Kept s := by
  have hind : (system ι ε State.logRetry).Inductive (Inv (ι := ι) (ε := ε)) :=
    ⟨fun s hs => by rw [show s = .initial from hs]; exact inv_initial,
      fun s l s' hi hs => inv_step hi (logForwarder_timely hi l) hs⟩
  exact (hind.reachable s h).kept

/-! ## The tracing proxy -/

/-- The step does not look at an attempt that timed out, but where it was
going on when the flag was set. -/
def noneLate (s : State ι ε) (l : Action ι ε) : Bool :=
  match l, s.consumer with
  | .consumer, .sent _ false => s.shutDown && s.attempts == 0
  | _, _ => true

theorem timely_of_noneLate {s : State ι ε} {l : Action ι ε} (h : noneLate s l = true) :
    Timely State.tracingRetry s l := by
  intro hl e he
  subst hl
  simp only [noneLate, he, Bool.and_eq_true, beq_iff_eq] at h
  exact ⟨fun _ => h.2, fun _ => h.1⟩

/-- The step looks at an attempt that timed out, before the flag was set or
after another attempt. -/
theorem late_cases {s : State ι ε} {l : Action ι ε} (h : noneLate s l = false) :
    l = .consumer ∧ ∃ e, s.consumer = .sent e false ∧ (s.shutDown = true → s.attempts ≠ 0) := by
  unfold noneLate at h
  split at h
  · rename_i e hpc
    refine ⟨rfl, e, hpc, fun hf h0 => ?_⟩
    simp [hf, h0] at h
  · cases h

/-- The loop goes on to the next event: the one in hand is lost. -/
theorem not_kept_head {s : State ι ε} (hk : Kept s) {e : ε} (hpc : s.consumer = .sent e false)
    (hf : s.shutDown = false) : ¬ Kept (s.goto .head) := by
  intro hk'
  have hlost : s.dequeued = s.delivered ++ [] := hk'.none_lost hf
  have hhand := hk.none_lost hf
  rw [hpc, hlost] at hhand
  simp [inHand] at hhand

/-- One attempt was made since the flag was set, and another one follows. -/
theorem not_kept_sent {s : State ι ε} (hf : s.shutDown = true) (h0 : s.attempts ≠ 0) {pc : Pc ε}
    {delivered : List ε} : ¬ Kept { s.goto pc with
      delivered := delivered, attempts := if s.shutDown then s.attempts + 1 else s.attempts } := by
  intro hk
  have hle : (if s.shutDown then s.attempts + 1 else s.attempts) ≤ 1 := hk.attempts_le
  rw [if_pos hf] at hle
  omega

section

variable [DecidableEq ι]

/-- **The tracing proxy** keeps every event and ends in every run in which no
attempt times out but one that was going on when the flag was set. A step that
is not of this kind loses its event at once, or leads to one attempt more. -/
theorem tracingProxy_kept :
    (∀ s : State ι ε, ((system ι ε State.tracingRetry).restrict fun s l => noneLate s l = true).Reachable s →
      Kept s) ∧
    ∀ (s s' : State ι ε) (l : Action ι ε), Kept s → noneLate s l = false →
      State.step State.tracingRetry s l = some s' →
      ¬ Kept s' ∨ ∀ delivered, ∃ s'', State.step State.tracingRetry s' (.sendResult delivered) = some s'' ∧
        ¬ Kept s'' := by
  constructor
  · intro s ⟨s₀, ls, hi, hr⟩
    have hind : ((system ι ε State.tracingRetry).restrict fun s l => noneLate s l = true).Inductive
        (Inv (ι := ι) (ε := ε)) :=
      ⟨fun s hs => by rw [show s = .initial from hs]; exact inv_initial,
        fun s l s' hi hs => inv_step hi (timely_of_noneLate hs.1) hs.2⟩
    exact (hind.reachable s ⟨s₀, ls, hi, hr⟩).kept
  · intro s s' l hk hl hs
    obtain ⟨rfl, e, hpc, hlate⟩ := late_cases hl
    cases hf : s.shutDown with
    | false =>
      have hs' : s' = s.goto .head := by
        simpa [State.step, State.consumerStep, hpc, hf, State.tracingRetry, eq_comm] using hs
      exact .inl (hs' ▸ not_kept_head hk hpc hf)
    | true =>
      have hs' : s' = s.goto (.send e) := by
        simpa [State.step, State.consumerStep, hpc, hf, State.tracingRetry, eq_comm] using hs
      subst hs'
      exact .inr fun delivered => ⟨_, rfl, not_kept_sent (s := s.goto (.send e)) hf (hlate hf)⟩

end

/-! ## Two runs -/

/-- One event is queued, and taken by the loop. -/
def takeSeven : List (Action Unit Nat) :=
  [.acquire () 7, .push (), .notify (), .release (), .consumer, .consumer, .consumer, .consumer, .consumer,
    .consumer]

/-- It is sent, and the loop is shut down. -/
def sentAndStopped : List (Action Unit Nat) :=
  takeSeven ++ [.sendResult true, .consumer, .setFlag, .consumer, .notifyAll, .join]

theorem tracingProxy_kept_stopped : ∃ s : State Unit Nat,
    ((system Unit Nat State.tracingRetry).restrict fun s l => noneLate s l = true).Reachable s ∧
      s.delivered = [7] ∧ s.stopper = .returned ∧ Kept s := by
  have h : ∃ s : State Unit Nat, LTS.exec (LTS.guarded (fun s l => noneLate s l = true)
      (State.step State.tracingRetry)) .initial sentAndStopped = some s ∧ s.delivered = [7] ∧
      s.stopper = .returned := ⟨_, rfl, rfl, rfl⟩
  obtain ⟨s, hs, hd, hr⟩ := h
  have hreach : ((system Unit Nat State.tracingRetry).restrict fun s l => noneLate s l = true).Reachable s :=
    LTS.Reachable.of_guarded rfl hs
  exact ⟨s, hreach, hd, hr, tracingProxy_kept.1 s hreach⟩

/-- **The counterexample.** An event whose only attempt times out is lost, and
with the flag set the loop tries a second time. -/
theorem event_lost :
    (∃ s : State Unit Nat, (system Unit Nat State.tracingRetry).Reachable s ∧ s.shutDown = false ∧
      s.consumer = .head ∧ s.dequeued = [7] ∧ s.delivered = []) ∧
    (∃ s : State Unit Nat, (system Unit Nat State.tracingRetry).Reachable s ∧ s.attempts = 2) ∧
    ¬ ∀ s : State Unit Nat, (system Unit Nat State.tracingRetry).Reachable s → Kept s := by
  have hlost : ∃ s : State Unit Nat, LTS.exec (State.step State.tracingRetry) .initial
      (takeSeven ++ [.sendResult false, .consumer]) = some s ∧ s.shutDown = false ∧ s.consumer = .head ∧
      s.dequeued = [7] ∧ s.delivered = [] := ⟨_, rfl, rfl, rfl, rfl, rfl⟩
  have hagain : ∃ s : State Unit Nat, LTS.exec (State.step State.tracingRetry) .initial
      (takeSeven ++ [.setFlag, .sendResult false, .consumer, .sendResult false]) = some s ∧
      s.attempts = 2 := ⟨_, rfl, rfl⟩
  obtain ⟨s, hs, hrest⟩ := hlost
  obtain ⟨s₂, hs₂, h2⟩ := hagain
  have hreach : (system Unit Nat State.tracingRetry).Reachable s := LTS.Reachable.of_exec rfl hs
  have hreach₂ : (system Unit Nat State.tracingRetry).Reachable s₂ := LTS.Reachable.of_exec rfl hs₂
  refine ⟨⟨s, hreach, hrest⟩, ⟨s₂, hreach₂, h2⟩, ?_⟩
  intro h
  have hk := (h s hreach).none_lost hrest.1
  rw [hrest.2.1, hrest.2.2.1, hrest.2.2.2] at hk
  cases hk

end Catkit2.L3.MessageLoop
