import Catkit2.Core.LTS
import Mathlib.Data.Nat.Basic

/-!
# The readers that a semaphore releases (catkit_core/Synchronization.cpp, Windows)

Without a condition variable, `Wait` counts itself in `m_NumReadersWaiting` and
waits for a semaphore; `Signal` takes the counter and releases as many. A turn
of the loop in `Wait` is meant to count the reader only if the turn before was
ended by a signal: `if (res == WAIT_OBJECT_0)`. The `res` that is tested is the
one declared before the loop. The wait of the platform assigns another `res`, declared in the
body of the loop, so every turn counts the reader.

A step is one access to the counter or the semaphore. The counter does not wrap.

* `counted_step`: a reader counts once as long as it does not test its condition
  again before a signal has taken it off the counter.
* `counter_le_inside`: in such runs the counter is at most the number of readers
  inside `Wait`.
-/
namespace Catkit2.L2

/-- Where a reader is in `Wait`.
mirrors catkit_core/Synchronization.cpp:115-155 -/
inductive WaitAt where
  | outside
  | testing
  /-- In `while (m_NumReadersWaiting++ < 0)`. -/
  | incrementing
  | waiting
  /-- The wait is over, and neither expired nor failed. -/
  | checking
  /-- About to decrement the counter and throw. -/
  | throwing
  deriving DecidableEq, Repr

/-- `counted`: the counter holds an increment of this reader, that is, no signal
came since. -/
structure WaitingReader where
  place : WaitAt
  counted : Bool
  deriving DecidableEq, Repr

def WaitingReader.inside (r : WaitingReader) : Bool := r.place ≠ .outside

/-- `releases` are the counts that signals have taken and not yet released.
mirrors catkit_core/Synchronization.h:22-30 -/
structure WaitingReaders where
  numReadersWaiting : Int
  semaphore : Nat
  readers : List WaitingReader
  releases : List Int

/-- The largest count of the semaphore.
mirrors catkit_core/Synchronization.cpp:61 -/
def maximumCount : Nat := 9999

/-- How the wait for the semaphore ends. -/
inductive SemaphoreWake where
  | object
  | timeout (expired : Bool)
  | failed
  deriving DecidableEq, Repr

inductive WaitStep where
  /-- Another process opens the stream. -/
  | arrive
  | enter (i : Nat)
  | test (i : Nat) (condition : Bool)
  | increment (i : Nat)
  | wake (i : Nat) (w : SemaphoreWake)
  | errorCheck (i : Nat) (throws : Bool)
  | decrement (i : Nat)
  /-- The two accesses of `Signal`. -/
  | exchange
  | release (k : Nat)

namespace WaitingReaders

def setReader (s : WaitingReaders) (i : Nat) (place : WaitAt) (counted : Bool) : WaitingReaders :=
  { s with readers := s.readers.set i ⟨place, counted⟩ }

/-- mirrors catkit_core/Synchronization.cpp:115-155,198-206 -/
def step (s : WaitingReaders) : WaitStep → Option WaitingReaders
  | .arrive => some { s with readers := s.readers ++ [⟨.outside, false⟩] }
  | .enter i =>
    match s.readers[i]? with
    | some ⟨.outside, _⟩ => some (s.setReader i .testing false)
    | _ => none
  | .test i condition =>
    match s.readers[i]? with
    | some ⟨.testing, counted⟩ =>
      if condition then some (s.setReader i .outside false) else some (s.setReader i .incrementing counted)
    | _ => none
  | .increment i =>
    match s.readers[i]? with
    | some ⟨.incrementing, counted⟩ =>
      let s' := { s with numReadersWaiting := s.numReadersWaiting + 1 }
      if s.numReadersWaiting < 0 then some (s'.setReader i .incrementing counted)
      else some (s'.setReader i .waiting true)
    | _ => none
  | .wake i w =>
    match s.readers[i]? with
    | some ⟨.waiting, counted⟩ =>
      match w with
      | .object =>
        if 0 < s.semaphore then
          some { s.setReader i .checking counted with semaphore := s.semaphore - 1 }
        else none
      | .timeout true | .failed => some (s.setReader i .throwing counted)
      | .timeout false => some (s.setReader i .checking counted)
    | _ => none
  | .errorCheck i throws =>
    match s.readers[i]? with
    | some ⟨.checking, counted⟩ => some (s.setReader i (if throws then .throwing else .testing) counted)
    | _ => none
  | .decrement i =>
    match s.readers[i]? with
    | some ⟨.throwing, _⟩ =>
      some { s.setReader i .outside false with numReadersWaiting := s.numReadersWaiting - 1 }
    | _ => none
  | .exchange =>
    some { s with
      numReadersWaiting := 0
      releases := s.releases ++ [s.numReadersWaiting]
      readers := s.readers.map fun r => { r with counted := false } }
  | .release k =>
    match s.releases[k]? with
    | some n => some { s with
        releases := s.releases.eraseIdx k
        -- more than the maximum is refused, and nothing is released
        semaphore :=
          if 0 < n ∧ s.semaphore + n.toNat ≤ maximumCount then s.semaphore + n.toNat else s.semaphore }
    | none => none

def new : WaitingReaders := ⟨0, 0, [], []⟩

/-- The readers inside `Wait`. -/
def insideWait (s : WaitingReaders) : Nat := s.readers.countP WaitingReader.inside

/-- The counter is at most the number of readers inside `Wait`. -/
def Bounded (s : WaitingReaders) : Prop := s.numReadersWaiting ≤ s.insideWait

/-- A reader tests its condition only after a signal has taken its last
increment off the counter. -/
def Signalled (s : WaitingReaders) : WaitStep → Prop
  | .test i _ => ∀ place counted, s.readers[i]? = some ⟨place, counted⟩ → counted = false
  | _ => True

end WaitingReaders

def waitingReaders : LTS WaitingReaders WaitStep := .ofFn (· = .new) WaitingReaders.step

namespace WaitingReaders

/-! ## The invariant -/

/-- The readers that the counter counts. -/
def countedReaders (s : WaitingReaders) : Nat := s.readers.countP WaitingReader.counted

/-- Only readers inside are counted, and none that is about to be. -/
structure Counted (s : WaitingReaders) : Prop where
  le : s.numReadersWaiting ≤ s.countedReaders
  inside : ∀ r ∈ s.readers, r.counted = true → r.place ≠ .outside ∧ r.place ≠ .incrementing

variable {s s' : WaitingReaders} {i : Nat} {place : WaitAt} {counted : Bool}

theorem Counted.bounded (h : Counted s) : s.Bounded := by
  have hle : s.countedReaders ≤ s.insideWait := by
    refine List.countP_mono_left fun r hr hc => ?_
    simpa [WaitingReader.inside] using (h.inside r hr hc).1
  have := h.le
  unfold Bounded
  omega

/-- One reader is changed. -/
theorem countP_setReader (p : WaitingReader → Bool) (hr : s.readers[i]? = some ⟨place, counted⟩)
    (place' : WaitAt) (counted' : Bool) :
    (s.setReader i place' counted').readers.countP p + (p ⟨place, counted⟩).toNat =
      s.readers.countP p + (p ⟨place', counted'⟩).toNat := by
  obtain ⟨hi, hget⟩ := List.getElem?_eq_some_iff.mp hr
  have hset := List.countP_set (p := p) (a := ⟨place', counted'⟩) hi
  have hpos : p ⟨place, counted⟩ = true → 0 < s.readers.countP p := fun hp =>
    List.countP_pos_iff.mpr ⟨_, List.mem_of_getElem? hr, hp⟩
  rw [hget] at hset
  unfold setReader
  rw [hset]
  cases hp : p ⟨place, counted⟩ with
  | false => cases p ⟨place', counted'⟩ <;> simp
  | true =>
    have := hpos hp
    cases p ⟨place', counted'⟩ <;> simp <;> omega

theorem countedReaders_setReader (hr : s.readers[i]? = some ⟨place, counted⟩) (place' : WaitAt)
    (counted' : Bool) :
    (s.setReader i place' counted').countedReaders + counted.toNat = s.countedReaders + counted'.toNat :=
  countP_setReader WaitingReader.counted hr place' counted'

theorem insideWait_setReader (hr : s.readers[i]? = some ⟨place, counted⟩) (hin : place ≠ .outside)
    (place' : WaitAt) (counted' : Bool) : (s.setReader i place' counted').insideWait + 1 =
      s.insideWait + (decide (place' ≠ .outside)).toNat := by
  have h := countP_setReader WaitingReader.inside hr place' counted'
  simpa [insideWait, WaitingReader.inside, hin] using h

theorem Counted.inside_setReader (h : Counted s) (place' : WaitAt) {counted' : Bool}
    (hc : counted' = true → place' ≠ .outside ∧ place' ≠ .incrementing) :
    ∀ r ∈ (s.setReader i place' counted').readers, r.counted = true →
      r.place ≠ .outside ∧ r.place ≠ .incrementing := by
  intro r hr
  rcases List.mem_or_eq_of_mem_set hr with hr | rfl
  · exact h.inside r hr
  · exact hc

/-- A reader goes on, and what is counted does not change. -/
theorem Counted.move (h : Counted s) (hr : s.readers[i]? = some ⟨place, counted⟩) {place' : WaitAt}
    (hc : counted = true → place' ≠ .outside ∧ place' ≠ .incrementing) :
    Counted (s.setReader i place' counted) := by
  have hcount := countedReaders_setReader hr place' counted
  have hle := h.le
  refine ⟨?_, h.inside_setReader place' hc⟩
  show s.numReadersWaiting ≤ _
  omega

/-- Where a counted reader can be, it stays counted. -/
theorem Counted.stays (h : Counted s) (hr : s.readers[i]? = some ⟨place, counted⟩) {place' : WaitAt}
    (hplace : place' ≠ .outside ∧ place' ≠ .incrementing) : Counted (s.setReader i place' counted) :=
  h.move hr fun _ => hplace

theorem Counted.increment (h : Counted s) (hr : s.readers[i]? = some ⟨.incrementing, counted⟩) :
    (s.numReadersWaiting < 0 →
      Counted { s.setReader i .incrementing counted with numReadersWaiting := s.numReadersWaiting + 1 }) ∧
    Counted { s.setReader i .waiting true with numReadersWaiting := s.numReadersWaiting + 1 } := by
  have hfalse : counted = false := by
    cases hc : counted with
    | false => rfl
    | true => exact absurd rfl (h.inside _ (List.mem_of_getElem? hr) hc).2
  subst hfalse
  have hle := h.le
  refine ⟨fun hneg => ⟨?_, h.inside_setReader _ (fun hc => by cases hc)⟩,
    ⟨?_, h.inside_setReader _ fun _ => ⟨by decide, by decide⟩⟩⟩
  · show s.numReadersWaiting + 1 ≤ _
    omega
  · have hcount := countedReaders_setReader hr .waiting true
    simp only [Bool.toNat_false, Bool.toNat_true] at hcount
    show s.numReadersWaiting + 1 ≤ ((s.setReader i .waiting true).countedReaders : Int)
    omega

/-- A reader that throws takes its increment with it, if it is still there. -/
theorem Counted.decrement (h : Counted s) (hr : s.readers[i]? = some ⟨.throwing, counted⟩) :
    Counted { s.setReader i .outside false with numReadersWaiting := s.numReadersWaiting - 1 } := by
  have hcount := countedReaders_setReader hr .outside false
  have hle := h.le
  have hone : counted.toNat ≤ 1 := Bool.toNat_le counted
  simp only [Bool.toNat_false, Nat.add_zero] at hcount
  refine ⟨?_, h.inside_setReader _ fun hc => by cases hc⟩
  show s.numReadersWaiting - 1 ≤ ((s.setReader i .outside false).countedReaders : Int)
  omega

theorem Counted.exchange (s : WaitingReaders) (releases : List Int) : Counted
    { s with
      numReadersWaiting := 0
      releases := releases
      readers := s.readers.map fun r => { r with counted := false } } := by
  refine ⟨Int.natCast_nonneg _, fun r hr hc => ?_⟩
  obtain ⟨r', -, rfl⟩ := List.mem_map.mp hr
  cases hc

/-- **Every step** in which a reader that tests its condition is not counted. -/
theorem counted_step {l : WaitStep} (h : Counted s) (hg : s.Signalled l) (hs : s.step l = some s') :
    Counted s' := by
  cases l with
  | arrive =>
    cases hs
    refine ⟨?_, fun r hr hc => ?_⟩
    · show s.numReadersWaiting ≤
        ((s.readers ++ [(⟨.outside, false⟩ : WaitingReader)]).countP WaitingReader.counted : Int)
      rw [List.countP_append]
      exact h.le
    · rcases List.mem_append.mp hr with hr | hr
      · exact h.inside r hr hc
      · rw [List.mem_singleton.mp hr] at hc
        cases hc
  | enter i =>
    simp only [step] at hs
    split at hs
    · rename_i counted hr
      cases hs
      have hfalse : counted = false := by
        cases hc : counted with
        | false => rfl
        | true => exact absurd rfl (h.inside _ (List.mem_of_getElem? hr) hc).1
      subst hfalse
      exact h.stays hr ⟨by decide, by decide⟩
    · cases hs
  | test i condition =>
    simp only [step] at hs
    split at hs
    · rename_i counted hr
      have hfalse : counted = false := hg _ _ hr
      subst hfalse
      split at hs
      · cases hs
        exact h.move hr fun hc => by cases hc
      · cases hs
        exact h.move hr fun hc => by cases hc
    · cases hs
  | increment i =>
    simp only [step] at hs
    split at hs
    · rename_i counted hr
      split at hs
      · rename_i hneg
        cases hs
        exact (h.increment hr).1 hneg
      · cases hs
        exact (h.increment hr).2
    · cases hs
  | wake i w =>
    simp only [step] at hs
    split at hs
    · rename_i counted hr
      split at hs
      · split at hs
        · cases hs
          have hchecking : WaitAt.checking ≠ .outside ∧ WaitAt.checking ≠ .incrementing := by decide
          have hstay := h.stays hr hchecking
          exact ⟨hstay.le, hstay.inside⟩
        · cases hs
      · cases hs
        exact h.stays hr ⟨by decide, by decide⟩
      · cases hs
        exact h.stays hr ⟨by decide, by decide⟩
      · cases hs
        exact h.stays hr ⟨by decide, by decide⟩
    · cases hs
  | errorCheck i throws =>
    simp only [step] at hs
    split at hs
    · rename_i counted hr
      cases hs
      refine h.stays hr ?_
      split
      · exact ⟨by decide, by decide⟩
      · exact ⟨by decide, by decide⟩
    · cases hs
  | decrement i =>
    simp only [step] at hs
    split at hs
    · rename_i counted hr
      cases hs
      exact h.decrement hr
    · cases hs
  | exchange =>
    cases hs
    exact .exchange s _
  | release k =>
    simp only [step] at hs
    split at hs
    · cases hs
      exact ⟨h.le, h.inside⟩
    · cases hs

/-- A reader that is still counted leaves, or counts itself again. -/
theorem not_bounded_of_retest (hr : s.readers[i]? = some ⟨.testing, true⟩)
    (hfull : s.numReadersWaiting = s.insideWait) :
    (∀ s', s.step (.test i true) = some s' → ¬ s'.Bounded) ∧
      ∀ s' s'', s.step (.test i false) = some s' → s'.step (.increment i) = some s'' → ¬ s''.Bounded := by
  obtain ⟨hi, -⟩ := List.getElem?_eq_some_iff.mp hr
  refine ⟨fun s' hs hb => ?_, fun s' s'' hs hs' hb => ?_⟩
  · simp only [step, hr, if_true, Option.some.injEq] at hs
    subst hs
    have hin := insideWait_setReader hr (by decide) .outside false
    have hle : s.numReadersWaiting ≤ (s.setReader i .outside false).insideWait := hb
    simp only [ne_eq, not_true_eq_false, decide_false, Bool.toNat_false, Nat.add_zero] at hin
    omega
  · simp only [step, hr, Bool.false_eq_true, if_false, Option.some.injEq] at hs
    subst hs
    have hr' : (s.setReader i .incrementing true).readers[i]? = some ⟨.incrementing, true⟩ :=
      List.getElem?_set_self hi
    have hin := insideWait_setReader hr (by decide) .incrementing true
    have hneg : ¬ (s.setReader i .incrementing true).numReadersWaiting < 0 := by
      show ¬ s.numReadersWaiting < 0
      omega
    simp only [step, hr', if_neg hneg, Option.some.injEq] at hs'
    subst hs'
    have hin' := insideWait_setReader hr' (by decide) .waiting true
    have hle : s.numReadersWaiting + 1 ≤
        ((s.setReader i .incrementing true).setReader i .waiting true).insideWait := hb
    simp only [ne_eq, reduceCtorEq, not_false_eq_true, decide_true, Bool.toNat_true] at hin hin'
    omega

end WaitingReaders

open WaitingReaders

/-- **The counter of waiting readers.** In every run in which each reader, once it
has counted itself, tests its condition again only after a signal took it off
the counter, the counter is at most the number of readers inside `Wait`, and a
signal takes at most that many. A reader that is still counted and tests its
condition when all readers inside are counted makes the counter too large,
whether it returns or goes on. -/
theorem counter_le_inside (s : WaitingReaders) (h : (waitingReaders.restrict Signalled).Reachable s) :
    s.Bounded ∧
      (∀ s', s.step .exchange = some s' → ∃ n : Int, s'.releases = s.releases ++ [n] ∧ n ≤ s.insideWait) ∧
      ∀ i, s.readers[i]? = some ⟨.testing, true⟩ → s.numReadersWaiting = s.insideWait →
        (∀ s', s.step (.test i true) = some s' → ¬ s'.Bounded) ∧
          ∀ s' s'', s.step (.test i false) = some s' → s'.step (.increment i) = some s'' → ¬ s''.Bounded := by
  have hind : (waitingReaders.restrict Signalled).Inductive Counted := by
    refine ⟨fun s hs => ?_, fun _ _ _ hi hs => counted_step hi hs.1 hs.2⟩
    cases hs
    exact ⟨Int.le_refl 0, fun r hr => by cases hr⟩
  have hb := (hind.reachable s h).bounded
  refine ⟨hb, fun s' hs => ?_, fun i hr hfull => not_bounded_of_retest hr hfull⟩
  cases hs
  exact ⟨s.numReadersWaiting, rfl, hb⟩

instance (s : WaitingReaders) (l : WaitStep) : Decidable (s.Signalled l) :=
  match l with
  | .test i _ => decidable_of_iff (∀ r ∈ s.readers[i]?, r.counted = false)
      ⟨fun h _ _ hr => h _ hr, fun h r hr => h r.place r.counted hr⟩
  | .arrive | .enter _ | .increment _ | .wake _ _ | .errorCheck _ _ | .decrement _ | .exchange
  | .release _ => isTrue trivial

/-- One reader enters and counts itself. -/
def enterAndCount : List WaitStep := [.arrive, .enter 0, .test 0 false, .increment 0]

/-- It is signalled, and counts itself a second time. -/
theorem counter_le_inside_signalled : ∃ s : WaitingReaders,
    s.numReadersWaiting = 1 ∧ s.insideWait = 1 ∧ s.Bounded := by
  obtain ⟨s, hs, hn, hi⟩ : ∃ s, LTS.exec (LTS.guarded Signalled WaitingReaders.step) .new (enterAndCount ++
      [.exchange, .release 0, .wake 0 .object, .errorCheck 0 false, .test 0 false, .increment 0]) = some s ∧
      s.numReadersWaiting = 1 ∧ s.insideWait = 1 := ⟨_, rfl, by decide, by decide⟩
  exact ⟨s, hn, hi, (counter_le_inside s (.of_guarded rfl hs)).1⟩

/-- **The counterexample.** Twenty milliseconds pass without a signal, and the
reader counts itself a second time. -/
theorem counted_twice : ¬ ∀ s, waitingReaders.Reachable s → s.Bounded := by
  intro h
  obtain ⟨s, hs, hn, hi⟩ : ∃ s, LTS.exec WaitingReaders.step .new (enterAndCount ++
      [.wake 0 (.timeout false), .errorCheck 0 false, .test 0 false, .increment 0]) = some s ∧
      s.numReadersWaiting = 2 ∧ s.insideWait = 1 := ⟨_, rfl, by decide, by decide⟩
  have hb : s.numReadersWaiting ≤ s.insideWait := h s (.of_exec rfl hs)
  omega

end Catkit2.L2
