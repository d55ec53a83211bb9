import Catkit2.Core.Heapq
import Catkit2.Core.LTS
import Catkit2.Core.PriorityQueue
import Mathlib.Data.Prod.Lex

/-!
# The simulator's loop and its queue (catkit2/simulator/simulator.py)

`main` pops the first callback and keeps it while it compares its time with
the wall clock. If simulated time would run too fast the callback goes back
into the queue; otherwise its time is published, the reference for the next
comparison is set and the callback runs. Any thread calls `add_callback` and
`remove_callback` meanwhile, a callback too. What they do under the lock is one
step. A call that returns, a reading of the clock and a publication are others.

`slow` says whether time would run too fast (`tooFast`). The cameras that `main` integrates
do not meet the queue. A callback without a time gets the one on the time
stream; with a time that was read before a publication, the step is the one
with that time.

* `inv_step`: what is queued or held by `main` is what is pending, in a heap, as
  long as no callback is removed while `main` holds it.
* `removed_never_runs`: then no callback runs after `remove_callback` returned.
-/
namespace Catkit2.L5.SimulatorLoop

open Heapq PriorityQueue

/-- Simulated time would run faster than `f` times the wall clock.
mirrors catkit2/simulator/simulator.py:115 -/
def tooFast {τ : Type} [LinearOrder τ] [Sub τ] [Mul τ] (f t time now lastUpdateTime : τ) : Bool :=
  decide (f * (now - lastUpdateTime) < t - time)

/-! ## Callbacks -/

/-- mirrors catkit2/simulator/simulator.py:11-34 -/
structure Callback (τ φ : Type) where
  time : τ
  id : Nat
  func : φ
  deriving DecidableEq

variable {τ φ : Type} [LinearOrder τ]

namespace Callback

/-- Tuples are compared in order. Ids differ, so the functions are never compared. -/
def key (c : Callback τ φ) : τ ×ₗ Nat := toLex (c.time, c.id)

/-- `Callback.__eq__` -/
def same (a b : Callback τ φ) : Bool := decide (a.time = b.time ∧ a.id = b.id)

end Callback

/-- Where `main` is in its loop. `ended` is after an error, too.
mirrors catkit2/simulator/simulator.py:96-133 -/
inductive MainAt (τ φ : Type) where
  | idle
  | top
  | images
  | popping
  | popped (callback : Callback τ φ)
  | tooFast (callback : Callback τ φ)
  | due (callback : Callback τ φ)
  | published (callback : Callback τ φ)
  | stamped (callback : Callback τ φ)
  /-- In the callback. -/
  | running
  | ended

/-- The callback that `main` took from the queue and did not start. -/
def MainAt.held : MainAt τ φ → List (Callback τ φ)
  | .popped c | .tooFast c | .due c | .published c | .stamped c => [c]
  | _ => []

/-- `removing` are the calls of `remove_callback` that did not return,
`started` the simulated time and the clock when `main` started. -/
structure State (τ φ : Type) where
  callbacks : List (Callback τ φ)
  callbackCounter : Nat
  time : τ
  now : τ
  lastUpdateTime : τ
  shouldShutDown : Bool
  main : MainAt τ φ
  removing : List (Callback τ φ)
  history : List (QueueEvent (Callback τ φ))
  started : Option (τ × τ)

inductive Step (τ φ : Type) where
  | tick (now : τ)
  | shutDown
  | add (func : φ) (t : Option τ)
  | remove (callback : Callback τ φ)
  | leave (call : Nat)
  | start
  | enter
  | look
  | pop
  | check
  | putBack
  | publish
  | stamp
  | run
  | finish
  /-- The image of a camera or a callback raises an error. -/
  | raise

namespace State

/-- `t₀` is the zero that the constructor submits. -/
def new (t₀ now : τ) : State τ φ := ⟨[], 0, t₀, now, now, false, .idle, [], [], none⟩

/-- mirrors catkit2/simulator/simulator.py:135-160 -/
def addCallback (s : State τ φ) (func : φ) (t : Option τ) : State τ φ :=
  let callback : Callback τ φ := ⟨t.getD s.time, s.callbackCounter, func⟩
  { s with
    callbacks := heappush Callback.key s.callbacks callback
    callbackCounter := s.callbackCounter + 1
    history := s.history ++ [.added callback] }

end State

/-- The list that `remove_callback` leaves; `in` and `index` go by `__eq__`.
mirrors catkit2/simulator/simulator.py:174-181 -/
def removeFrom (callbacks : List (Callback τ φ)) (callback : Callback τ φ) : List (Callback τ φ) :=
  match callbacks.findIdx? callback.same, callbacks.getLast? with
  | some index, some last => heapify Callback.key (callbacks.set index last).dropLast
  | _, _ => callbacks

namespace State

/-- What `remove_callback` does under the lock. -/
def removeCallback (s : State τ φ) (callback : Callback τ φ) : State τ φ :=
  { s with
    callbacks := removeFrom s.callbacks callback
    removing := s.removing ++ [callback]
    history := s.history ++ [.removed callback] }

variable [DecidableEq φ] (slow : τ → τ → τ → τ → Bool)

/-- `remove_callback` takes what an earlier `add_callback` returned. -/
def step (s : State τ φ) : Step τ φ → Option (State τ φ)
  | .tick now => some { s with now := now }
  | .shutDown => some { s with shouldShutDown := true }
  | .add func t => some (s.addCallback func t)
  | .remove callback =>
    if .added callback ∈ s.history then some (s.removeCallback callback) else none
  | .leave call =>
    match s.removing[call]? with
    | some callback => some { s with
        removing := s.removing.eraseIdx call
        history := s.history ++ [.returned callback] }
    | none => none
  | .start =>
    match s.main with
    | .idle => some { s with lastUpdateTime := s.now, started := some (s.time, s.now), main := .top }
    | _ => none
  | .enter =>
    match s.main with
    | .top => some { s with main := if s.shouldShutDown then .ended else .images }
    | _ => none
  | .look =>
    match s.main with
    | .images => some { s with main := if s.callbacks = [] then .top else .popping }
    | _ => none
  | .pop =>
    match s.main with
    | .popping =>
      match heappop Callback.key s.callbacks with
      | some (callback, callbacks) => some { s with callbacks := callbacks, main := .popped callback }
      | none => some { s with main := .ended }  -- IndexError
    | _ => none
  | .check =>
    match s.main with
    | .popped callback => some { s with
        main := if slow callback.time s.time s.now s.lastUpdateTime then .tooFast callback else .due callback }
    | _ => none
  | .putBack =>
    match s.main with
    | .tooFast callback => some { s with
        callbacks := heappush Callback.key s.callbacks callback
        main := .top }
    | _ => none
  | .publish =>
    match s.main with
    | .due callback => some { s with time := callback.time, main := .published callback }
    | _ => none
  | .stamp =>
    match s.main with
    | .published callback => some { s with lastUpdateTime := s.now, main := .stamped callback }
    | _ => none
  | .run =>
    match s.main with
    | .stamped callback => some { s with history := s.history ++ [.taken callback], main := .running }
    | _ => none
  | .finish =>
    match s.main with
    | .running => some { s with main := .top }
    | _ => none
  | .raise =>
    match s.main with
    | .images | .running => some { s with main := .ended }
    | _ => none

def lts (t₀ now : τ) : LTS (State τ φ) (Step τ φ) := .ofFn (· = new t₀ now) (step slow)

/-- A callback is not removed while `main` holds it. -/
def Unheld (s : State τ φ) : Step τ φ → Prop
  | .remove callback => callback ∉ s.main.held
  | _ => True

/-- No callback is added or removed while `main` holds one. -/
def Alone (s : State τ φ) : Step τ φ → Prop
  | .add _ _ | .remove _ => s.main.held = []
  | _ => True

/-- The wall clock does not go back. -/
def Forward (s : State τ φ) : Step τ φ → Prop
  | .tick now => s.now ≤ now
  | _ => True

instance (s : State τ φ) (l : Step τ φ) : Decidable (s.Unheld l) := by
  cases l <;> unfold Unheld <;> infer_instance

instance (s : State τ φ) (l : Step τ φ) : Decidable (s.Alone l) := by
  cases l <;> unfold Alone <;> infer_instance

instance (s : State τ φ) (l : Step τ φ) : Decidable (s.Forward l) := by
  cases l <;> unfold Forward <;> infer_instance

end State

/-! ## What a step does to the queue -/

/-- Between the queue and `main`, callbacks only change places. -/
structure Quiet (s s' : State τ φ) : Prop where
  callbackCounter : s'.callbackCounter = s.callbackCounter
  history : s'.history = s.history
  removing : s'.removing = s.removing
  queued : (s'.callbacks ++ s'.main.held).Perm (s.callbacks ++ s.main.held)
  heap : IsHeap Callback.key s.callbacks → IsHeap Callback.key s'.callbacks
  held : ∀ c ∈ s'.main.held, (c ∈ s.main.held ∧ s'.callbacks = s.callbacks) ∨
    heappop Callback.key s.callbacks = some (c, s'.callbacks)

namespace Quiet

variable {s s' : State τ φ}

/-- The queue and what `main` holds stay. -/
theorem of_eq (hc : s'.callbacks = s.callbacks) (hm : s'.main.held = s.main.held)
    (hn : s'.callbackCounter = s.callbackCounter) (hh : s'.history = s.history)
    (hr : s'.removing = s.removing) : Quiet s s' := by
  refine ⟨hn, hh, hr, ?_, fun h => hc ▸ h, fun c hc' => .inl ⟨hm ▸ hc', hc⟩⟩
  rw [hc, hm]

theorem pop {c : Callback τ φ} {cs : List (Callback τ φ)} (hm : s.main.held = [])
    (hpop : heappop Callback.key s.callbacks = some (c, cs)) :
    Quiet s { s with callbacks := cs, main := .popped c } := by
  refine ⟨rfl, rfl, rfl, ?_, fun h => heappop_isHeap h hpop, fun d hd => .inr ?_⟩
  · rw [hm, List.append_nil]
    exact (List.perm_append_singleton c cs).trans (heappop_perm hpop).symm
  · rw [List.mem_singleton.mp hd]
    exact hpop

theorem putBack {c : Callback τ φ} (hm : s.main.held = [c]) :
    Quiet s { s with callbacks := heappush Callback.key s.callbacks c, main := .top } := by
  refine ⟨rfl, rfl, rfl, ?_, fun h => heappush_isHeap h c, fun d hd => by cases hd⟩
  rw [hm, show MainAt.held (.top : MainAt τ φ) = [] from rfl, List.append_nil]
  exact (heappush_perm _ c).trans (List.perm_append_singleton c _).symm

end Quiet

namespace State

variable [DecidableEq φ] {slow : τ → τ → τ → τ → Bool} {s s' : State τ φ} {l : Step τ φ}

/-- **Every step.** -/
theorem step_cases (h : step slow s l = some s') :
    Quiet s s' ∨ (∃ func t, l = .add func t ∧ s' = s.addCallback func t) ∨
      (∃ c, l = .remove c ∧ .added c ∈ s.history ∧ s' = s.removeCallback c) ∨
      (∃ c i, s.removing[i]? = some c ∧ s' = { s with
        removing := s.removing.eraseIdx i
        history := s.history ++ [.returned c] }) ∨
      (∃ c, s.main = .stamped c ∧ s' = { s with history := s.history ++ [.taken c], main := .running }) := by
  cases l with
  | tick now | shutDown =>
    cases h
    exact .inl (.of_eq rfl rfl rfl rfl rfl)
  | add func t =>
    cases h
    exact .inr (.inl ⟨func, t, rfl, rfl⟩)
  | remove c =>
    simp only [step] at h
    split at h
    · rename_i hadded
      cases h
      exact .inr (.inr (.inl ⟨c, rfl, hadded, rfl⟩))
    · cases h
  | leave i =>
    simp only [step] at h
    split at h
    · rename_i c hc
      cases h
      exact .inr (.inr (.inr (.inl ⟨c, i, hc, rfl⟩)))
    · cases h
  | run =>
    simp only [step] at h
    split at h
    · rename_i c hm
      cases h
      exact .inr (.inr (.inr (.inr ⟨c, hm, rfl⟩)))
    · cases h
  | pop =>
    simp only [step] at h
    split at h
    · rename_i hm
      split at h
      · rename_i c cs hpop
        cases h
        exact .inl (.pop (by rw [hm]; rfl) hpop)
      · cases h
        exact .inl (.of_eq rfl (by rw [hm]; rfl) rfl rfl rfl)
    · cases h
  | putBack =>
    simp only [step] at h
    split at h
    · rename_i c hm
      cases h
      exact .inl (.putBack (by rw [hm]; rfl))
    · cases h
  | enter | look | check =>
    simp only [step] at h
    split at h
    · rename_i hm
      cases h
      exact .inl (.of_eq rfl (by rw [hm]; dsimp only; split <;> rfl) rfl rfl rfl)
    · cases h
  | start | publish | stamp | finish =>
    simp only [step] at h
    split at h
    · rename_i hm
      cases h
      exact .inl (.of_eq rfl (by rw [hm]; rfl) rfl rfl rfl)
    · cases h
  | raise =>
    simp only [step] at h
    split at h
    · rename_i hm
      cases h
      exact .inl (.of_eq rfl (by rw [hm]; rfl) rfl rfl rfl)
    · rename_i hm
      cases h
      exact .inl (.of_eq rfl (by rw [hm]; rfl) rfl rfl rfl)
    · cases h

end State

/-! ## Removal -/

theorem Callback.same_iff {c d : Callback τ φ} : c.same d = true ↔ c.time = d.time ∧ c.id = d.id := by
  simp [Callback.same]

/-- One callback is equal to the one that is removed, or none. -/
theorem removeFrom_spec {callbacks : List (Callback τ φ)} {c : Callback τ φ}
    (heap : IsHeap Callback.key callbacks) (huniq : ∀ d ∈ callbacks, d.id = c.id → d = c) :
    IsHeap Callback.key (removeFrom callbacks c) ∧
      ((c ∉ callbacks ∧ removeFrom callbacks c = callbacks) ∨
        callbacks.Perm (c :: removeFrom callbacks c)) := by
  unfold removeFrom
  split
  · rename_i index last hindex hlast
    refine ⟨heapify_isHeap _, .inr ?_⟩
    obtain ⟨hlt, hsame, -⟩ := List.findIdx?_eq_some_iff_getElem.mp hindex
    have hc : callbacks[index] = c := huniq _ (List.getElem_mem hlt) (Callback.same_iff.mp hsame).2.symm
    have hget : callbacks[index]? = some c := by rw [List.getElem?_eq_getElem hlt, hc]
    exact (overwrite_perm hget hlast).trans ((heapify_perm _).symm.cons c)
  · rename_i hnot
    refine ⟨heap, .inl ⟨fun hmem => ?_, rfl⟩⟩
    have hsome : (callbacks.findIdx? c.same).isSome := by
      rw [List.findIdx?_isSome, List.any_eq_true]
      exact ⟨c, hmem, Callback.same_iff.mpr ⟨rfl, rfl⟩⟩
    obtain ⟨index, hindex⟩ := Option.isSome_iff_exists.mp hsome
    have hlast : callbacks.getLast? = some (callbacks.getLast (List.ne_nil_of_mem hmem)) :=
      List.getLast?_eq_some_getLast _
    exact hnot _ _ hindex hlast

/-! ## The invariant -/

/-- What is queued or held is what is pending. -/
structure Inv (s : State τ φ) : Prop where
  heap : IsHeap Callback.key s.callbacks
  nodup : (s.callbacks ++ s.main.held).Nodup
  pending : ∀ c, c ∈ s.callbacks ++ s.main.held ↔ Pending s.history c
  fresh : ∀ c, .added c ∈ s.history → c.id < s.callbackCounter
  unique : ∀ c d, .added c ∈ s.history → .added d ∈ s.history → c.id = d.id → c = d
  removing : ∀ c ∈ s.removing, .removed c ∈ s.history
  accounted : Accounted s.history

namespace Inv

variable {s s' : State τ φ}

theorem new (t₀ now : τ) : Inv (State.new t₀ now : State τ φ) := by
  refine ⟨isHeap_nil, List.nodup_nil, fun c => ⟨?_, ?_⟩, ?_, ?_, ?_, .nil⟩
  · intro hc; cases hc
  · intro hc; cases hc.added
  · intro c hc; cases hc
  · intro c d hc; cases hc
  · intro c hc; cases hc

theorem quiet (h : Inv s) (hq : Quiet s s') : Inv s' := by
  refine ⟨hq.heap h.heap, hq.queued.nodup_iff.mpr h.nodup, fun c => ?_, ?_, ?_, ?_, ?_⟩
  · rw [hq.queued.mem_iff, hq.history]
    exact h.pending c
  · rw [hq.history, hq.callbackCounter]
    exact h.fresh
  · rw [hq.history]
    exact h.unique
  · rw [hq.history, hq.removing]
    exact h.removing
  · rw [hq.history]
    exact h.accounted

/-- The id of a callback that is added is new. -/
theorem addCallback (h : Inv s) (func : φ) (t : Option τ) : Inv (s.addCallback func t) := by
  have hnew : ∀ c, .added c ∈ s.history → c.id ≠ s.callbackCounter := fun c hc => (h.fresh c hc).ne
  generalize hcb : (⟨t.getD s.time, s.callbackCounter, func⟩ : Callback τ φ) = callback
  have hid : callback.id = s.callbackCounter := by rw [← hcb]
  have hs : s.addCallback func t = { s with
      callbacks := heappush Callback.key s.callbacks callback
      callbackCounter := s.callbackCounter + 1
      history := s.history ++ [.added callback] } := by rw [← hcb]; rfl
  rw [hs]
  have hadded : .added callback ∉ s.history := fun hm => hnew _ hm hid
  have hremoved : .removed callback ∉ s.history := fun hm => hadded (h.accounted.added_of_removed hm)
  have htaken : .taken callback ∉ s.history := fun hm => hadded (h.accounted.added_of_taken hm)
  have hperm : (heappush Callback.key s.callbacks callback ++ s.main.held).Perm
      (callback :: (s.callbacks ++ s.main.held)) := (heappush_perm _ callback).append_right _
  refine ⟨heappush_isHeap h.heap _, ?_, fun c => ?_, fun c hc => ?_, fun c d hc hd hcd => ?_, fun c hc => ?_,
    h.accounted.snoc hadded⟩
  · refine hperm.nodup_iff.mpr (List.nodup_cons.mpr ⟨fun hm => ?_, h.nodup⟩)
    exact hadded ((h.pending callback).mp hm).added
  · rw [pending_added hremoved htaken, hperm.mem_iff, List.mem_cons, h.pending c, or_comm]
  · have hc' : .added c ∈ s.history ∨ c = callback := by simpa using hc
    rcases hc' with hc' | rfl
    · exact Nat.lt_succ_of_lt (h.fresh c hc')
    · exact hid ▸ Nat.lt_succ_self _
  · have hc' : .added c ∈ s.history ∨ c = callback := by simpa using hc
    have hd' : .added d ∈ s.history ∨ d = callback := by simpa using hd
    rcases hc' with hc' | rfl <;> rcases hd' with hd' | rfl
    · exact h.unique c d hc' hd' hcd
    · exact absurd (hcd.trans hid) (hnew c hc')
    · exact absurd (hcd.symm.trans hid) (hnew d hd')
    · rfl
  · exact List.mem_append_left _ (h.removing c hc)

/-- A callback that `main` does not hold is in the queue, or gone. -/
theorem removeCallback (h : Inv s) {c : Callback τ φ} (hc : .added c ∈ s.history) (hheld : c ∉ s.main.held) :
    Inv (s.removeCallback c) := by
  have huniq : ∀ d ∈ s.callbacks, d.id = c.id → d = c := fun d hd =>
    h.unique d c ((h.pending d).mp (List.mem_append_left _ hd)).added hc
  obtain ⟨heap, hremoved⟩ := removeFrom_spec h.heap huniq
  have hqueue : (removeFrom s.callbacks c ++ s.main.held).Nodup ∧
      ∀ d, d ∈ removeFrom s.callbacks c ++ s.main.held ↔ d ∈ s.callbacks ++ s.main.held ∧ d ≠ c := by
    rcases hremoved with ⟨hnot, heq⟩ | hperm
    · rw [heq]
      refine ⟨h.nodup, fun d => ⟨fun hd => ⟨hd, ?_⟩, And.left⟩⟩
      rintro rfl
      exact (List.mem_append.mp hd).elim hnot hheld
    · have hperm' := hperm.append_right s.main.held
      obtain ⟨hnot, hnodup⟩ := List.nodup_cons.mp (hperm'.nodup_iff.mp h.nodup)
      refine ⟨hnodup, fun d => ?_⟩
      rw [hperm'.mem_iff, List.cons_append, List.mem_cons]
      constructor
      · intro hd
        exact ⟨.inr hd, fun hdc => hnot (hdc ▸ hd)⟩
      · rintro ⟨rfl | hd, hne⟩
        · exact absurd rfl hne
        · exact hd
  refine ⟨heap, hqueue.1, fun d => ?_, fun d hd => ?_, fun d e hd he => ?_, fun d hd => ?_,
    h.accounted.snoc hc⟩
  · have hd := hqueue.2 d
    rw [h.pending d] at hd
    exact hd.trans pending_removed.symm
  · exact h.fresh d (by simpa [State.removeCallback] using hd)
  · exact h.unique d e (by simpa [State.removeCallback] using hd) (by simpa [State.removeCallback] using he)
  · have hd' : d ∈ s.removing ∨ d = c := by simpa [State.removeCallback] using hd
    rcases hd' with hd' | rfl
    · exact List.mem_append_left _ (h.removing d hd')
    · exact List.mem_append_right _ (by simp)

theorem returned (h : Inv s) {c : Callback τ φ} {i : Nat} (hi : s.removing[i]? = some c) :
    Inv { s with removing := s.removing.eraseIdx i, history := s.history ++ [.returned c] } := by
  have hc : .removed c ∈ s.history := h.removing c (List.mem_of_getElem? hi)
  refine ⟨h.heap, h.nodup, fun d => (h.pending d).trans pending_returned.symm, fun d hd => ?_,
    fun d e hd he => ?_, fun d hd => ?_, h.accounted.snoc hc⟩
  · exact h.fresh d (by simpa using hd)
  · exact h.unique d e (by simpa using hd) (by simpa using he)
  · exact List.mem_append_left _ (h.removing d (List.mem_of_mem_eraseIdx hd))

/-- A callback that runs was pending, and is no longer held. -/
theorem run (h : Inv s) {c : Callback τ φ} (hm : s.main = .stamped c) :
    Inv { s with history := s.history ++ [.taken c], main := .running } := by
  have hheld : s.main.held = [c] := by rw [hm]; rfl
  obtain ⟨hcallbacks, -, hdisjoint⟩ := List.nodup_append.mp h.nodup
  have hc : Pending s.history c := (h.pending c).mp (by rw [hheld]; simp)
  have hnot : c ∉ s.callbacks := fun hmem => hdisjoint c hmem c (by rw [hheld]; simp) rfl
  have hqueue : ∀ d, d ∈ s.callbacks ↔ Pending (s.history ++ [.taken c]) d := by
    intro d
    rw [pending_taken, ← h.pending d, hheld, List.mem_append, List.mem_singleton]
    constructor
    · intro hd
      exact ⟨.inl hd, fun hdc => hnot (hdc ▸ hd)⟩
    · rintro ⟨hd | rfl, hne⟩
      · exact hd
      · exact absurd rfl hne
  refine ⟨h.heap, ?_, fun d => ?_, fun d hd => ?_, fun d e hd he => ?_, fun d hd => ?_,
    h.accounted.snoc hc⟩
  · rw [show MainAt.held (.running : MainAt τ φ) = [] from rfl, List.append_nil]
    exact hcallbacks
  · rw [show MainAt.held (.running : MainAt τ φ) = [] from rfl, List.append_nil]
    exact hqueue d
  · exact h.fresh d (by simpa using hd)
  · exact h.unique d e (by simpa using hd) (by simpa using he)
  · exact List.mem_append_left _ (h.removing d hd)

end Inv

section Runs

variable [DecidableEq φ] {slow : τ → τ → τ → τ → Bool}

theorem inv_step {s s' : State τ φ} {l : Step τ φ} (h : Inv s) (hl : s.Unheld l)
    (hs : State.step slow s l = some s') : Inv s' := by
  rcases State.step_cases hs with hq | ⟨func, t, -, rfl⟩ | ⟨c, rfl, hc, rfl⟩ | ⟨c, i, hi, rfl⟩ | ⟨c, hm, rfl⟩
  · exact h.quiet hq
  · exact h.addCallback func t
  · exact h.removeCallback hc hl
  · exact h.returned hi
  · exact h.run hm

theorem inv_of_unheld {t₀ now : τ} {s : State τ φ}
    (h : ((State.lts slow t₀ now).restrict State.Unheld).Reachable s) : Inv s := by
  have hind : ((State.lts slow t₀ now).restrict (State.Unheld (φ := φ))).Inductive Inv :=
    ⟨fun s hs => hs ▸ .new t₀ now, fun _ _ _ hi hs => inv_step hi hs.1 hs.2⟩
  exact hind.reachable s h

/-- **A callback that was removed never runs**, in any run in which no callback is
removed while `main` holds it: if it did not start when `remove_callback`
returned, it does not start afterwards. -/
theorem removed_never_runs (t₀ now : τ) (s : State τ φ)
    (h : ((State.lts slow t₀ now).restrict State.Unheld).Reachable s) :
    ∀ h₁ c h₂, s.history = h₁ ++ .returned c :: h₂ → .taken c ∉ h₁ → .taken c ∉ h₂ := by
  intro h₁ c h₂ heq _
  have hacc := (inv_of_unheld h).accounted
  rw [heq] at hacc
  exact hacc.not_taken_after_returned

end Runs

/-- A callback for time 5 waits in the queue while it is removed. -/
def removedInTime : List (Step Int Unit) :=
  [.add () (some 5), .start, .enter, .look, .pop, .check, .putBack, .remove ⟨5, 0, ()⟩, .leave 0, .tick 5, .enter,
    .look]

/-- It is removed while `main` finds that it is too early. -/
def removedTooLate : List (Step Int Unit) :=
  [.add () (some 5), .start, .enter, .look, .pop, .remove ⟨5, 0, ()⟩, .leave 0, .check, .putBack, .tick 5, .enter,
    .look, .pop, .check, .publish, .stamp, .run]

theorem removed_never_runs_inTime : ∃ s : State Int Unit,
    ((State.lts (tooFast 1) 0 0).restrict State.Unheld).Reachable s ∧
      s.history = [.added ⟨5, 0, ()⟩, .removed ⟨5, 0, ()⟩, .returned ⟨5, 0, ()⟩] ∧ s.callbacks = [] ∧
      ∀ h₁ c h₂, s.history = h₁ ++ .returned c :: h₂ → .taken c ∉ h₁ → .taken c ∉ h₂ := by
  obtain ⟨s, hs, hh, hc⟩ : ∃ s, LTS.exec (LTS.guarded State.Unheld (State.step (tooFast 1))) (State.new 0 0)
      removedInTime = some s ∧ s.history = [.added ⟨5, 0, ()⟩, .removed ⟨5, 0, ()⟩, .returned ⟨5, 0, ()⟩] ∧
        s.callbacks = [] := ⟨_, rfl, rfl, rfl⟩
  have hreach : ((State.lts (tooFast 1) 0 0).restrict State.Unheld).Reachable s := .of_guarded rfl hs
  exact ⟨s, hreach, hh, hc, removed_never_runs 0 0 s hreach⟩

/-- **The counterexample.** -/
theorem removed_runs : ¬ ∀ s : State Int Unit, (State.lts (tooFast 1) 0 0).Reachable s →
    ∀ h₁ c h₂, s.history = h₁ ++ .returned c :: h₂ → .taken c ∉ h₁ → .taken c ∉ h₂ := by
  intro h
  obtain ⟨s, hs, hh⟩ : ∃ s, LTS.exec (State.step (tooFast 1)) (State.new 0 0) removedTooLate = some s ∧
      s.history = [.added ⟨5, 0, ()⟩, .removed ⟨5, 0, ()⟩] ++ .returned ⟨5, 0, ()⟩ :: [.taken ⟨5, 0, ()⟩] :=
    ⟨_, rfl, rfl⟩
  have hnot := h s (LTS.Reachable.of_exec rfl hs) _ _ _ hh (by decide)
  exact hnot (by simp)

end Catkit2.L5.SimulatorLoop
