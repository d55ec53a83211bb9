import Catkit2.L3Service.MessageLoop

/-!
# The wake-up of a shutdown (catkit_core/Tracing.cpp, catkit_core/LogForwarder.cpp)

`Disconnect`, and the destructor of the log forwarder, set the flag and notify
without the mutex under which the loop tests the queue and the flag and starts
to wait. A notification between the test and the wait reaches nobody: the loop
waits, and the shutdown waits for the loop.

* `shutdown_wakes`: the two wait for each other in no run in which the
  notification does not come between the test and the wait, and in every run
  in which it does.
* `stuck_stays`: then only a new event, or a return of `wait` without a
  notification, goes on.
-/
namespace Catkit2.L3.MessageLoop

variable {ι ε : Type}

/-- The shutdown waits for the loop, the loop waits, and nobody is about to notify. -/
structure Stuck (s : State ι ε) : Prop where
  joining : s.stopper = .joining
  flag : s.shutDown = true
  waiting : s.consumer = .waiting
  producers : ∀ p, s.producers p = .idle

/-- The step is not the notification of the shutdown while the loop is
between its test and its wait. -/
def notBetween (s : State ι ε) (l : Action ι ε) : Bool :=
  match l, s.consumer with
  | .notifyAll, .enterWait => false
  | _, _ => true

/-! ## Who holds the mutex -/

def Pc.holds : Pc ε → Bool
  | .empty | .flag | .enterWait | .test | .pop | .unlock _ => true
  | _ => false

structure Locked (s : State ι ε) : Prop where
  producers : ∀ p, s.producers p ≠ .idle → s.mutex = some (.producer p)
  consumer : s.consumer.holds = true → s.mutex = some .consumer
  flag : s.stopper ≠ .idle → s.shutDown = true

theorem holds_wake (s : State ι ε) : s.wake.consumer.holds = s.consumer.holds := by
  unfold State.wake
  cases s.consumer <;> rfl

theorem Locked.wake {s : State ι ε} (h : Locked s) : Locked s.wake where
  producers := h.producers
  consumer hc := h.consumer (holds_wake s ▸ hc)
  flag := h.flag

/-- The loop goes on without the mutex changing hands. -/
theorem Locked.goto {s : State ι ε} (h : Locked s) {pc : Pc ε}
    (hpc : pc.holds = true → s.consumer.holds = true) : Locked (s.goto pc) where
  producers := h.producers
  consumer hc := h.consumer (hpc hc)
  flag := h.flag

/-- The loop takes the mutex that is free: nobody is adding an event. -/
theorem Locked.take {s : State ι ε} (h : Locked s) (hm : s.mutex = none) (pc : Pc ε) :
    Locked { s.goto pc with mutex := some .consumer } where
  producers p hp := by
    have := h.producers p hp
    rw [hm] at this
    cases this
  consumer _ := rfl
  flag := h.flag

/-- The loop gives the mutex back. -/
theorem Locked.give {s : State ι ε} (h : Locked s) (hc : s.consumer.holds = true) {pc : Pc ε}
    (hpc : pc.holds = false) : Locked { s.goto pc with mutex := none } where
  producers p hp := by
    have h1 := h.producers p hp
    rw [h.consumer hc] at h1
    cases h1
  consumer hc' := by
    rw [show pc.holds = true from hc'] at hpc
    cases hpc
  flag := h.flag

/-- The loop jumps without the mutex changing hands. -/
theorem Jump.holds {retry : Bool → Bool} {s : State ι ε} {here pc : Pc ε} (h : Jump retry s here pc)
    (hpc : pc.holds = true) : here.holds = true := by
  cases h <;> first | rfl | cases hpc

theorem Give.holds {here pc : Pc ε} (h : Give here pc) : here.holds = true ∧ pc.holds = false := by
  cases h <;> exact ⟨rfl, rfl⟩

theorem locked_consumerStep {retry : Bool → Bool} {s s' : State ι ε} (h : Locked s)
    (hs : s.consumerStep retry = some s') : Locked s' := by
  obtain ⟨pc, hj, rfl⟩ | ⟨-, hm, rfl⟩ | ⟨pc, hg, rfl⟩ | ⟨e, queue, hpc, -, rfl⟩ := consumerStep_cases hs
  · exact h.goto hj.holds
  · exact h.take hm .empty
  · exact h.give hg.holds.1 hg.holds.2
  · have hgo : Locked (s.goto (.unlock (some e))) := h.goto fun _ => by simp [hpc, Pc.holds]
    exact ⟨hgo.producers, hgo.consumer, hgo.flag⟩

section

variable [DecidableEq ι] {retry : Bool → Bool}

/-- A step of a thread that adds an event and has the mutex. -/
theorem Locked.producer {s : State ι ε} (h : Locked s) {p : ι} (hm : s.mutex = some (.producer p))
    (pr : Producer ε) : ∀ q, Function.update s.producers p pr q ≠ .idle → s.mutex = some (.producer q) := by
  intro q hq
  by_cases hqp : q = p
  · rw [hqp]
    exact hm
  · rw [Function.update_of_ne hqp] at hq
    exact h.producers q hq

theorem locked_step {s s' : State ι ε} {l : Action ι ε} (h : Locked s)
    (hs : State.step retry s l = some s') : Locked s' := by
  cases l with
  | consumer => exact locked_consumerStep h hs
  | sendResult delivered =>
    simp only [State.step] at hs
    split at hs
    · rename_i e _
      cases hs
      have hgo : Locked (s.goto (.sent e delivered)) := h.goto fun hc => by simp [Pc.holds] at hc
      exact ⟨hgo.producers, hgo.consumer, hgo.flag⟩
    · cases hs
  | wakeUp =>
    simp only [State.step] at hs
    split at hs
    · cases hs
      exact h.wake
    · cases hs
  | acquire p e =>
    simp only [State.step] at hs
    split at hs
    · rename_i _ hm
      cases hs
      refine ⟨fun q hq => ?_, fun hc => ?_, h.flag⟩
      · by_cases hqp : q = p
        · rw [hqp]
        · change Function.update s.producers p _ q ≠ .idle at hq
          rw [Function.update_of_ne hqp] at hq
          have := h.producers q hq
          rw [hm] at this
          cases this
      · have := h.consumer hc
        rw [hm] at this
        cases this
    · cases hs
  | push p =>
    simp only [State.step] at hs
    split at hs
    · rename_i e hp
      cases hs
      exact ⟨h.producer (h.producers p (by simp [hp])) _, h.consumer, h.flag⟩
    · cases hs
  | notify p =>
    simp only [State.step] at hs
    split at hs
    · rename_i hp
      cases hs
      exact ⟨h.producer (h.producers p (by simp [hp])) _, h.wake.consumer, h.flag⟩
    · cases hs
  | release p =>
    simp only [State.step] at hs
    split at hs
    · rename_i hp
      cases hs
      have hm := h.producers p (by simp [hp])
      refine ⟨fun q hq => ?_, fun hc => ?_, h.flag⟩
      · by_cases hqp : q = p
        · subst hqp
          simp at hq
        · change Function.update s.producers p _ q ≠ .idle at hq
          rw [Function.update_of_ne hqp] at hq
          have := (h.producers q hq).symm.trans hm
          simp only [Option.some.injEq, Owner.producer.injEq] at this
          exact absurd this hqp
      · have := (h.consumer hc).symm.trans hm
        cases this
    · cases hs
  | setFlag =>
    simp only [State.step] at hs
    split at hs
    · cases hs
      exact ⟨h.producers, h.consumer, fun _ => rfl⟩
    · cases hs
  | notifyAll =>
    simp only [State.step] at hs
    split at hs
    · rename_i hst
      cases hs
      exact ⟨h.producers, h.wake.consumer, fun _ => h.flag (by simp [hst])⟩
    · cases hs
  | join =>
    simp only [State.step] at hs
    split at hs
    · rename_i hst _
      cases hs
      exact ⟨h.producers, h.consumer, fun _ => h.flag (by simp [hst])⟩
    · cases hs

theorem locked_reachable {s : State ι ε} (h : (system ι ε retry).Reachable s) : Locked s := by
  have hind : (system ι ε retry).Inductive (Locked (ι := ι) (ε := ε)) := by
    refine ⟨fun s hs => ?_, fun s l s' hi hs => locked_step hi hs⟩
    rw [show s = .initial from hs]
    exact ⟨fun p hp => absurd rfl hp, fun hc => (by cases hc), fun hst => absurd rfl hst⟩
  exact hind.reachable s h

end

/-! ## After the notification -/

/-- The notification was sent, and the loop neither waits nor is about to. -/
def Awake (s : State ι ε) : Prop :=
  s.stopper = .joining ∨ s.stopper = .returned → s.consumer ≠ .enterWait ∧ s.consumer ≠ .waiting

/-- With the flag set the loop does not go on to wait. -/
theorem consumerStep_awake {retry : Bool → Bool} {s s' : State ι ε} (hf : s.shutDown = true)
    (h : s.consumer ≠ .enterWait) (hs : s.consumerStep retry = some s') :
    s'.consumer ≠ .enterWait ∧ s'.consumer ≠ .waiting := by
  obtain ⟨pc, hj, rfl⟩ | ⟨-, -, rfl⟩ | ⟨pc, hg, rfl⟩ | ⟨e, queue, -, -, rfl⟩ := consumerStep_cases hs
  · show pc ≠ .enterWait ∧ pc ≠ .waiting
    generalize s.consumer = here at hj
    cases hj with
    | noFlag hno => simp [hf] at hno
    | _ => simp
  · simp [State.goto]
  · show pc ≠ .enterWait ∧ pc ≠ .waiting
    generalize s.consumer = here at hg h
    cases hg with
    | wait => exact absurd rfl h
    | _ => simp
  · simp [State.goto]

theorem wake_awake {s : State ι ε} (h : s.consumer ≠ .enterWait) :
    s.wake.consumer ≠ .enterWait ∧ s.wake.consumer ≠ .waiting := by
  unfold State.wake
  cases hpc : s.consumer <;> simp_all

theorem consumerStep_stopper {retry : Bool → Bool} {s s' : State ι ε}
    (hs : s.consumerStep retry = some s') : s'.stopper = s.stopper := by
  obtain ⟨pc, -, rfl⟩ | ⟨-, -, rfl⟩ | ⟨pc, -, rfl⟩ | ⟨e, queue, -, -, rfl⟩ := consumerStep_cases hs <;> rfl

section

variable [DecidableEq ι] {retry : Bool → Bool}

theorem awake_step {s s' : State ι ε} {l : Action ι ε} (hlock : Locked s) (h : Awake s)
    (hl : notBetween s l = true) (hs : State.step retry s l = some s') : Awake s' := by
  cases l with
  | consumer =>
    intro hst
    rw [consumerStep_stopper hs] at hst
    have hf : s.shutDown = true := hlock.flag (by rcases hst with hst | hst <;> simp [hst])
    exact consumerStep_awake hf (h hst).1 hs
  | sendResult delivered =>
    simp only [State.step] at hs
    split at hs <;> cases hs
    exact fun _ => by simp [State.goto]
  | wakeUp =>
    simp only [State.step] at hs
    split at hs <;> cases hs
    exact fun hst => wake_awake (h hst).1
  | acquire p e =>
    simp only [State.step] at hs
    split at hs <;> cases hs
    exact h
  | push p =>
    simp only [State.step] at hs
    split at hs <;> cases hs
    exact h
  | notify p =>
    simp only [State.step] at hs
    split at hs <;> cases hs
    exact fun hst => wake_awake (h hst).1
  | release p =>
    simp only [State.step] at hs
    split at hs <;> cases hs
    exact h
  | setFlag =>
    simp only [State.step] at hs
    split at hs <;> cases hs
    intro hst
    rcases hst with hst | hst <;> cases hst
  | notifyAll =>
    simp only [State.step] at hs
    split at hs <;> cases hs
    intro _
    refine wake_awake fun hpc => ?_
    simp [notBetween, hpc] at hl
  | join =>
    simp only [State.step] at hs
    split at hs
    · rename_i hst _
      cases hs
      exact fun _ => h (.inl hst)
    · cases hs

/-- **The wake-up.** In no run in which the notification of the shutdown does
not come between the test and the wait of the loop do the two wait for each
other, and in every run in which it does they do so with the next step of the
loop. -/
theorem shutdown_wakes (retry : Bool → Bool) :
    (∀ s : State ι ε, ((system ι ε retry).restrict fun s l => notBetween s l = true).Reachable s →
      ¬ Stuck s) ∧
    ∀ s s' : State ι ε, (system ι ε retry).Reachable s → ∀ l, notBetween s l = false →
      State.step retry s l = some s' → ∃ s'', State.step retry s' .consumer = some s'' ∧ Stuck s'' := by
  constructor
  · intro s hreach hstuck
    have hind : ((system ι ε retry).restrict fun s l => notBetween s l = true).Inductive
        fun s => Locked s ∧ Awake s := by
      refine ⟨fun s hs => ?_, fun s l s' hi hs => ⟨locked_step hi.1 hs.2, awake_step hi.1 hi.2 hs.1 hs.2⟩⟩
      rw [show s = .initial from hs]
      refine ⟨locked_reachable (LTS.Reachable.of_init (T := system ι ε retry) rfl), fun hst => ?_⟩
      rcases hst with hst | hst <;> cases hst
    exact ((hind.reachable s hreach).2 (.inl hstuck.joining)).2 hstuck.waiting
  · intro s s' hreach l hl hs
    have hlock := locked_reachable hreach
    cases l with
    | notifyAll =>
      have hpc : s.consumer = .enterWait := by
        unfold notBetween at hl
        split at hl
        · assumption
        · cases hl
      simp only [State.step] at hs
      split at hs
      · rename_i hst
        cases hs
        have hwake : s.wake = s := wake_of_ne (by simp [hpc])
        refine ⟨{ s.goto .waiting with mutex := none, stopper := .joining }, ?_, rfl, ?_, rfl, fun p => ?_⟩
        · rw [hwake]
          simp [State.step, State.consumerStep, hpc, State.goto]
        · exact hlock.flag (by simp [hst])
        · -- the loop has the mutex, so that nobody is adding an event
          by_contra hp
          have := (hlock.producers p hp).symm.trans (hlock.consumer (by simp [hpc, Pc.holds]))
          cases this
      · cases hs
    | _ => simp [notBetween] at hl

/-- Only a new event, or a return of `wait` without a notification, goes on. -/
theorem stuck_stays {s s' : State ι ε} {l : Action ι ε} (h : Stuck s) (hs : State.step retry s l = some s') :
    l = .wakeUp ∨ ∃ p e, l = .acquire p e := by
  cases l with
  | wakeUp => exact .inl rfl
  | acquire p e => exact .inr ⟨p, e, rfl⟩
  | consumer => simp [State.step, State.consumerStep, h.waiting] at hs
  | sendResult delivered => simp [State.step, h.waiting] at hs
  | push p => simp [State.step, h.producers p] at hs
  | notify p => simp [State.step, h.producers p] at hs
  | release p => simp [State.step, h.producers p] at hs
  | setFlag => simp [State.step, h.joining] at hs
  | notifyAll => simp [State.step, h.joining] at hs
  | join => simp [State.step, h.joining, h.waiting] at hs

end

/-! ## Two runs -/

/-- The loop finds the queue empty and the flag not set. -/
def testedEmpty : List (Action Unit Nat) := [.consumer, .consumer, .consumer, .consumer]

theorem shutdown_wakes_waiting : ∃ s : State Unit Nat,
    ((system Unit Nat State.logRetry).restrict fun s l => notBetween s l = true).Reachable s ∧
      s.stopper = .joining ∧ s.consumer = .relock ∧ ¬ Stuck s := by
  have h : ∃ s : State Unit Nat, LTS.exec (LTS.guarded (fun s l => notBetween s l = true)
      (State.step State.logRetry)) .initial (testedEmpty ++ [.consumer, .setFlag, .notifyAll]) = some s ∧
      s.stopper = .joining ∧ s.consumer = .relock := ⟨_, rfl, rfl, rfl⟩
  obtain ⟨s, hs, hst, hpc⟩ := h
  have hreach : ((system Unit Nat State.logRetry).restrict fun s l => notBetween s l = true).Reachable s :=
    LTS.Reachable.of_guarded rfl hs
  exact ⟨s, hreach, hst, hpc, (shutdown_wakes State.logRetry).1 s hreach⟩

/-- **The counterexample.** The flag is set and notified between the test and
the wait. -/
theorem wakeup_lost : ¬ ∀ (retry : Bool → Bool) (s : State Unit Nat),
    (system Unit Nat retry).Reachable s → ¬ Stuck s := by
  intro h
  have hrun : ∃ s : State Unit Nat, LTS.exec (State.step State.tracingRetry) .initial
      (testedEmpty ++ [.setFlag, .notifyAll, .consumer]) = some s ∧ s.stopper = .joining ∧
      s.shutDown = true ∧ s.consumer = .waiting ∧ s.producers () = .idle := ⟨_, rfl, rfl, rfl, rfl, rfl⟩
  obtain ⟨s, hs, hst, hf, hpc, hp⟩ := hrun
  exact h State.tracingRetry s (LTS.Reachable.of_exec rfl hs) ⟨hst, hf, hpc, fun _ => hp⟩

end Catkit2.L3.MessageLoop
