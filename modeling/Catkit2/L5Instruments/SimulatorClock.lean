import Catkit2.Core.LTS
import Mathlib.Data.Nat.Basic
import Mathlib.Logic.Function.Basic
import Mathlib.Order.Lattice

/-!
# The simulator's clock under other threads (catkit2/simulator/simulator.py)

`main` takes the next callback from the queue, integrates the cameras up to
its time, publishes that time on the time stream and runs the callback. Other
threads call `add_callback` meanwhile. The lock is held for the operations on
the queue and, in `add_callback`, from reading the time to the push; not while
`main` goes from the pop to the published time.

A step is one access to what the threads share. Of a callback only its time
and its id matter; what it does is calls of `add_callback` and
`remove_callback` on the main thread, any number of them.

* `sound_step`: the steps that keep the queue ahead of the clock.
* `clock_of_onTime`: times never go back as long as nothing in the queue, and no
  call under way, is earlier than the time that is being published.
-/
namespace Catkit2.L5

variable {τ : Type}

/-! ## The threads -/

/-- A callback in the queue. -/
structure Timed (τ : Type) where
  time : τ
  id : Nat
  deriving DecidableEq

inductive Caller where
  /-- Code of a callback, on the main thread. -/
  | main
  | other (thread : Nat)
  deriving DecidableEq

/-- Where a thread is in `add_callback`; `t` is what it was called with.
mirrors catkit2/simulator/simulator.py:152-158 -/
inductive Adding (τ : Type) where
  | idle
  | called (t : Option τ)
  | locked (t : Option τ)
  | stamped (t : τ)

/-- The time that a call under way already stands for. -/
def Adding.stamp : Adding τ → Option τ
  | .idle => none
  | .called t | .locked t => t
  | .stamped t => some t

/-- Where `main` is in its loop.
mirrors catkit2/simulator/simulator.py:99-133 -/
inductive MainAt (τ : Type) where
  | top
  | popped (callback : Timed τ)
  | integrated (callback : Timed τ)
  | published (callback : Timed τ)
  /-- In the callback. -/
  | running

/-- `published` is every value of the time stream, `executed` the time of every
callback that ran, `integrated` from where to where the cameras integrated. -/
structure Clock (τ : Type) where
  time : τ
  callbacks : List (Timed τ)
  callbackCounter : Nat
  lock : Option Caller
  adding : Caller → Adding τ
  main : MainAt τ
  published : List τ
  executed : List τ
  integrated : List (τ × τ)

/-- The constructor submits `t₀`, zero. -/
def Clock.new (t₀ : τ) : Clock τ := ⟨t₀, [], 0, none, fun _ => .idle, .top, [t₀], [], []⟩

inductive ClockStep (τ : Type) where
  | call (c : Caller) (t : Option τ)
  | acquire (c : Caller)
  | stamp (c : Caller)
  | push (c : Caller)
  /-- `remove_callback`, in a callback. -/
  | remove (callback : Timed τ)
  | pop (callback : Timed τ)
  /-- Too fast: the callback goes back into the queue. -/
  | putBack
  | integrate
  | publish
  | run
  | finish

variable [LinearOrder τ]

/-- `<` of the tuples. -/
def Timed.before (a b : Timed τ) : Prop := a.time < b.time ∨ a.time = b.time ∧ a.id < b.id

instance (a b : Timed τ) : Decidable (a.before b) := by unfold Timed.before; exact inferInstance

/-- What `main` holds is not before the simulated time. -/
def MainAt.From (t : τ) : MainAt τ → Prop
  | .popped callback | .integrated callback => t ≤ callback.time
  | .published callback => callback.time = t
  | _ => True

namespace Clock

def setAdding (s : Clock τ) (c : Caller) (a : Adding τ) : Clock τ :=
  { s with adding := Function.update s.adding c a }

/-- A given time is not before the simulated time when `add_callback` is called. -/
def step (s : Clock τ) : ClockStep τ → Option (Clock τ)
  | .call c t =>
    match s.adding c, c, s.main with
    | .idle, .other _, _ | .idle, .main, .running =>
      if ∀ t' ∈ t, s.time ≤ t' then some (s.setAdding c (.called t)) else none
    | _, _, _ => none
  | .acquire c =>
    match s.adding c, s.lock with
    | .called t, none => some { s.setAdding c (.locked t) with lock := some c }
    | _, _ => none
  | .stamp c =>
    match s.adding c with
    | .locked t => some (s.setAdding c (.stamped (t.getD s.time)))
    | _ => none
  | .push c =>
    match s.adding c with
    | .stamped t => some { s.setAdding c .idle with
        callbacks := s.callbacks ++ [⟨t, s.callbackCounter⟩]
        callbackCounter := s.callbackCounter + 1
        lock := none }
    | _ => none
  | .remove callback =>
    match s.main, s.adding .main, s.lock with
    | .running, .idle, none => some { s with callbacks := s.callbacks.erase callback }
    | _, _, _ => none
  | .pop callback =>
    match s.main, s.lock with
    | .top, none =>
      if callback ∈ s.callbacks ∧ ∀ c ∈ s.callbacks, ¬ c.before callback then
        some { s with callbacks := s.callbacks.erase callback, main := .popped callback }
      else none
    | _, _ => none
  | .putBack =>
    match s.main, s.lock with
    | .popped callback, none => some { s with callbacks := s.callbacks ++ [callback], main := .top }
    | _, _ => none
  | .integrate =>
    match s.main with
    | .popped callback => some { s with
        integrated := s.integrated ++ [(s.time, callback.time)]
        main := .integrated callback }
    | _ => none
  | .publish =>
    match s.main with
    | .integrated callback => some { s with
        time := callback.time
        published := s.published ++ [callback.time]
        main := .published callback }
    | _ => none
  | .run =>
    match s.main with
    | .published callback => some { s with executed := s.executed ++ [callback.time], main := .running }
    | _ => none
  | .finish =>
    match s.main, s.adding .main with
    | .running, .idle => some { s with main := .top }
    | _, _ => none

def lts (t₀ : τ) : LTS (Clock τ) (ClockStep τ) := .ofFn (· = new t₀) step

/-- Nothing in the queue, and no call of `add_callback` that is under way with a
time, is before `t`. -/
def Ahead (s : Clock τ) (t : τ) : Prop :=
  (∀ c ∈ s.callbacks, t ≤ c.time) ∧ ∀ c, ∀ t' ∈ (s.adding c).stamp, t ≤ t'

/-- When `main` publishes the time of the callback it took, nothing is earlier. -/
def OnTime (s : Clock τ) : ClockStep τ → Prop
  | .publish => ∀ callback, s.main = .integrated callback → s.Ahead callback.time
  | _ => True

/-! ## The invariant -/

/-- The list never goes back, and `t` is not before it. -/
def UpTo (t : τ) (l : List τ) : Prop := l.Pairwise (· ≤ ·) ∧ ∀ x ∈ l, x ≤ t

structure Sound (s : Clock τ) : Prop where
  ahead : s.Ahead s.time
  main : s.main.From s.time
  published : UpTo s.time s.published
  executed : UpTo s.time s.executed
  integrated : ∀ i ∈ s.integrated, i.1 ≤ i.2

variable {s s' : Clock τ}

theorem UpTo.mono {t t' : τ} {l : List τ} (h : UpTo t l) (ht : t ≤ t') : UpTo t' l :=
  ⟨h.1, fun x hx => (h.2 x hx).trans ht⟩

theorem UpTo.append {t : τ} {l : List τ} (h : UpTo t l) : UpTo t (l ++ [t]) := by
  refine ⟨List.pairwise_append.mpr ⟨h.1, List.pairwise_singleton _ _, fun x hx y hy => ?_⟩, fun x hx => ?_⟩
  · rw [List.mem_singleton.mp hy]
    exact h.2 x hx
  · rcases List.mem_append.mp hx with hx | hx
    · exact h.2 x hx
    · exact (List.mem_singleton.mp hx).le

theorem Ahead.setAdding {t : τ} (h : s.Ahead t) (c : Caller) {a : Adding τ}
    (ha : ∀ t' ∈ a.stamp, t ≤ t') : (s.setAdding c a).Ahead t := by
  refine ⟨h.1, fun c' t' ht' => ?_⟩
  by_cases hc : c' = c
  · subst hc
    simp only [Clock.setAdding, Function.update_self] at ht'
    exact ha t' ht'
  · simp only [Clock.setAdding, Function.update_of_ne hc] at ht'
    exact h.2 c' t' ht'

/-- A queue that takes a callback that is not before `t`. -/
theorem Ahead.append {t : τ} (h : s.Ahead t) {callback : Timed τ} (hc : t ≤ callback.time) :
    ({ s with callbacks := s.callbacks ++ [callback] } : Clock τ).Ahead t := by
  refine ⟨fun c hmem => ?_, h.2⟩
  rcases List.mem_append.mp hmem with hmem | hmem
  · exact h.1 c hmem
  · rw [List.mem_singleton.mp hmem]
    exact hc

theorem Ahead.erase {t : τ} (h : s.Ahead t) (callback : Timed τ) :
    ({ s with callbacks := s.callbacks.erase callback } : Clock τ).Ahead t :=
  ⟨fun c hmem => h.1 c (List.mem_of_mem_erase hmem), h.2⟩

/-- Steps that leave the clock and what `main` holds. -/
theorem Sound.of_ahead (h : Sound s) (hahead : s'.Ahead s.time) (htime : s'.time = s.time)
    (hmain : s'.main.From s.time) (hp : s'.published = s.published) (he : s'.executed = s.executed)
    (hi : s'.integrated = s.integrated) : Sound s' := by
  refine ⟨htime ▸ hahead, htime ▸ hmain, ?_, ?_, ?_⟩
  · rw [htime, hp]; exact h.published
  · rw [htime, he]; exact h.executed
  · rw [hi]; exact h.integrated

theorem Sound.from_main (h : Sound s) {m : MainAt τ} (hm : s.main = m) : m.From s.time := hm ▸ h.main

/-- **Each step.** -/
theorem sound_step {l : ClockStep τ} (h : Sound s) (hon : s.OnTime l) (hs : s.step l = some s') :
    Sound s' := by
  cases l with
  | call c t =>
    simp only [step] at hs
    split at hs
    · split at hs
      · rename_i ht
        cases hs
        exact h.of_ahead (h.ahead.setAdding _ ht) rfl h.main rfl rfl rfl
      · cases hs
    · split at hs
      · rename_i ht
        cases hs
        exact h.of_ahead (h.ahead.setAdding _ ht) rfl h.main rfl rfl rfl
      · cases hs
    · cases hs
  | acquire c =>
    simp only [step] at hs
    split at hs
    · rename_i t hc _
      cases hs
      have hstamp : ∀ t' ∈ (Adding.locked t).stamp, s.time ≤ t' := by
        intro t' ht'
        exact h.ahead.2 c t' (by rw [hc]; exact ht')
      exact h.of_ahead (h.ahead.setAdding c hstamp) rfl h.main rfl rfl rfl
    · cases hs
  | stamp c =>
    simp only [step] at hs
    split at hs
    · rename_i t hc
      cases hs
      have hstamp : ∀ t' ∈ (Adding.stamped (t.getD s.time)).stamp, s.time ≤ t' := by
        rintro t' ⟨⟩
        cases t with
        | none => exact le_refl _
        | some t => exact h.ahead.2 c t (by rw [hc]; rfl)
      exact h.of_ahead (h.ahead.setAdding c hstamp) rfl h.main rfl rfl rfl
    · cases hs
  | push c =>
    simp only [step] at hs
    split at hs
    · rename_i t hc
      cases hs
      have hset := h.ahead.setAdding c (a := .idle) (fun t' ht' => by cases ht')
      have hpush : s.time ≤ (⟨t, s.callbackCounter⟩ : Timed τ).time := h.ahead.2 c t (by rw [hc]; rfl)
      exact h.of_ahead (hset.append hpush) rfl h.main rfl rfl rfl
    · cases hs
  | remove callback =>
    simp only [step] at hs
    split at hs
    · cases hs
      exact h.of_ahead (h.ahead.erase callback) rfl h.main rfl rfl rfl
    · cases hs
  | pop callback =>
    simp only [step] at hs
    split at hs
    · split at hs
      · rename_i hnext
        cases hs
        exact h.of_ahead (h.ahead.erase callback) rfl (h.ahead.1 callback hnext.1) rfl rfl rfl
      · cases hs
    · cases hs
  | putBack =>
    simp only [step] at hs
    split at hs
    · rename_i callback hm _
      cases hs
      have hmain := h.from_main hm
      exact h.of_ahead (h.ahead.append hmain) rfl trivial rfl rfl rfl
    · cases hs
  | integrate =>
    simp only [step] at hs
    split at hs
    · rename_i callback hm
      cases hs
      have hmain := h.from_main hm
      refine ⟨h.ahead, hmain, h.published, h.executed, fun i hi => ?_⟩
      rcases List.mem_append.mp hi with hi | hi
      · exact h.integrated i hi
      · rw [List.mem_singleton.mp hi]
        exact hmain
    · cases hs
  | publish =>
    simp only [step] at hs
    split at hs
    · rename_i callback hm
      cases hs
      have hmain := h.from_main hm
      exact ⟨hon callback hm, rfl, (h.published.mono hmain).append, h.executed.mono hmain, h.integrated⟩
    · cases hs
  | run =>
    simp only [step] at hs
    split at hs
    · rename_i callback hm
      cases hs
      have hmain := h.from_main hm
      have hexec := h.executed.append
      rw [← show callback.time = s.time from hmain] at hexec
      exact ⟨h.ahead, trivial, h.published, hmain ▸ hexec, h.integrated⟩
    · cases hs
  | finish =>
    simp only [step] at hs
    split at hs
    · cases hs
      exact ⟨h.ahead, trivial, h.published, h.executed, h.integrated⟩
    · cases hs

theorem sound_new (t₀ : τ) : Sound (new t₀) := by
  refine ⟨⟨fun c hc => ?_, fun c t' ht' => ?_⟩, trivial, ⟨List.pairwise_singleton _ _, fun x hx => ?_⟩,
    ⟨List.Pairwise.nil, fun x hx => ?_⟩, fun i hi => ?_⟩
  · cases hc
  · cases ht'
  · exact (List.mem_singleton.mp hx).le
  · cases hx
  · cases hi

end Clock

open Clock

/-- **The clock never goes back** in any run in which, whenever `main` publishes
the time of a callback, nothing in the queue and no `add_callback` under way
is earlier: neither the times of the callbacks that ran, nor the time stream,
and the cameras integrate over no negative time. -/
theorem clock_of_onTime (t₀ : τ) (s : Clock τ) (h : ((lts t₀).restrict OnTime).Reachable s) :
    s.executed.Pairwise (· ≤ ·) ∧ s.published.Pairwise (· ≤ ·) ∧ ∀ i ∈ s.integrated, i.1 ≤ i.2 := by
  have hind : ((lts t₀).restrict OnTime).Inductive Sound :=
    ⟨fun s hs => hs ▸ sound_new t₀, fun _ _ _ hi hs => sound_step hi hs.1 hs.2⟩
  have hsound := hind.reachable s h
  exact ⟨hsound.executed.1, hsound.published.1, hsound.integrated⟩

/-- Another thread has a callback run at time 10. -/
def firstCallback : List (ClockStep Nat) :=
  [.call (.other 1) (some 10), .acquire (.other 1), .stamp (.other 1), .push (.other 1), .pop ⟨10, 0⟩, .integrate]

/-- Then `main` is about to publish it, and nobody else waits. -/
theorem exec_firstCallback : ∃ s, LTS.exec step (new 0) firstCallback = some s ∧
    s.main = .integrated ⟨10, 0⟩ ∧ s.callbacks = [] ∧ s.published = [0] ∧ s.adding = fun _ => .idle := by
  refine ⟨_, rfl, rfl, rfl, rfl, ?_⟩
  simp [setAdding, new]

theorem clock_of_onTime_first : ∃ s : Clock Nat,
    ((lts 0).restrict OnTime).Reachable s ∧ s.published = [0, 10] ∧ s.published.Pairwise (· ≤ ·) := by
  obtain ⟨s, hs, hmain, hq, hp, hidle⟩ := exec_firstCallback
  have hreach : ((lts 0).restrict OnTime).Reachable s := by
    refine LTS.Reachable.of_free rfl (fun l hl s => ?_) hs
    simp only [firstCallback, List.mem_cons, List.not_mem_nil, or_false] at hl
    rcases hl with rfl | rfl | rfl | rfl | rfl | rfl <;> trivial
  have hon : s.OnTime .publish := by
    intro callback hcb
    refine ⟨fun c hc => ?_, fun c t ht => ?_⟩
    · rw [hq] at hc; cases hc
    · rw [hidle] at ht; cases ht
  obtain ⟨s', hs', hp'⟩ : ∃ s', step s .publish = some s' ∧ s'.published = s.published ++ [10] := by
    simp only [step, hmain]
    exact ⟨_, rfl, rfl⟩
  have hreach' : ((lts 0).restrict OnTime).Reachable s' := hreach.step ⟨hon, hs'⟩
  refine ⟨s', hreach', ?_, (clock_of_onTime 0 s' hreach').2.1⟩
  rw [hp', hp]
  rfl

/-- **The counterexample.** `main` has taken a callback for time 10 when another
thread asks for one at the simulated time, still 0. -/
theorem clock_goes_back : ¬ ∀ s : Clock Nat, (lts 0).Reachable s → s.executed.Pairwise (· ≤ ·) := by
  intro h
  obtain ⟨s, hs, hback⟩ : ∃ s : Clock Nat, LTS.exec step (new 0) (firstCallback ++
      [.call (.other 1) none, .acquire (.other 1), .stamp (.other 1), .push (.other 1), .publish, .run, .finish,
        .pop ⟨0, 1⟩, .integrate, .publish, .run]) = some s ∧ s.executed = [10, 0] := ⟨_, rfl, rfl⟩
  have hsorted := h s (LTS.Reachable.of_exec rfl hs)
  rw [hback] at hsorted
  exact absurd hsorted (by decide)

end Catkit2.L5
