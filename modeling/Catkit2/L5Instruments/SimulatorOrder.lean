import Catkit2.L5Instruments.SimulatorLoop

/-!
# The order in which the simulator runs callbacks (catkit2/simulator/simulator.py)

The loop of `main` with calls of `add_callback` and `remove_callback` only
where `main` holds no callback: between two iterations, and in a callback.

* `queue_refines`: then the queue is a priority queue, ordered by time and id.
-/
namespace Catkit2.L5.SimulatorLoop

open Heapq PriorityQueue

variable {τ φ : Type} [LinearOrder τ]

/-- The ids of the callbacks that were added increase. -/
def Increasing (h : List (QueueEvent (Callback τ φ))) : QueueEvent (Callback τ φ) → Prop
  | .added c => ∀ d, .added d ∈ h → d.id < c.id
  | _ => True

/-- What `main` holds is not after what is queued. -/
structure InOrder (s : State τ φ) : Prop extends Inv s where
  first : ∀ c ∈ s.main.held, ∀ d ∈ s.callbacks, c.key ≤ d.key
  ordered : Ordered Callback.key s.history
  increasing : Each Increasing s.history

namespace InOrder

variable {s s' : State τ φ}

theorem new (t₀ now : τ) : InOrder (State.new t₀ now : State τ φ) :=
  ⟨.new t₀ now, fun c hc => (by cases hc), .nil, .nil⟩

theorem quiet (h : InOrder s) (hq : Quiet s s') : InOrder s' := by
  refine ⟨h.toInv.quiet hq, fun c hc d hd => ?_, ?_, ?_⟩
  · rcases hq.held c hc with ⟨hheld, heq⟩ | hpop
    · exact h.first c hheld d (heq ▸ hd)
    · have hd' : d ∈ s.callbacks := (heappop_perm hpop).symm.subset (List.mem_cons_of_mem _ hd)
      exact heappop_le h.heap hpop d hd'
  · rw [hq.history]
    exact h.ordered
  · rw [hq.history]
    exact h.increasing

theorem addCallback (h : InOrder s) (hheld : s.main.held = []) (func : φ) (t : Option τ) :
    InOrder (s.addCallback func t) := by
  refine ⟨h.toInv.addCallback func t, fun c hc => ?_, h.ordered.snoc trivial, h.increasing.snoc ?_⟩
  · have hc' : c ∈ s.main.held := hc
    rw [hheld] at hc'
    cases hc'
  · exact fun d hd => h.fresh d hd

theorem removeCallback (h : InOrder s) {c : Callback τ φ} (hc : .added c ∈ s.history)
    (hheld : s.main.held = []) : InOrder (s.removeCallback c) := by
  have hnot : c ∉ s.main.held := by simp [hheld]
  refine ⟨h.toInv.removeCallback hc hnot, fun d hd => ?_, h.ordered.snoc trivial, h.increasing.snoc trivial⟩
  have hd' : d ∈ s.main.held := hd
  rw [hheld] at hd'
  cases hd'

theorem returned (h : InOrder s) {c : Callback τ φ} {i : Nat} (hi : s.removing[i]? = some c) :
    InOrder { s with removing := s.removing.eraseIdx i, history := s.history ++ [.returned c] } :=
  ⟨h.toInv.returned hi, h.first, h.ordered.snoc trivial, h.increasing.snoc trivial⟩

/-- What is pending is queued, or it is the callback itself. -/
theorem run (h : InOrder s) {c : Callback τ φ} (hm : s.main = .stamped c) :
    InOrder { s with history := s.history ++ [.taken c], main := .running } := by
  have hheld : s.main.held = [c] := by rw [hm]; rfl
  refine ⟨h.toInv.run hm, fun d hd => (by cases hd), h.ordered.snoc fun d hd => ?_, h.increasing.snoc trivial⟩
  have hd' := (h.pending d).mpr hd
  rw [hheld, List.mem_append, List.mem_singleton] at hd'
  rcases hd' with hd' | rfl
  · exact h.first c (by rw [hheld]; simp) d hd'
  · exact le_refl _

/-- What was added first has the smaller id. -/
theorem id_lt (h : InOrder s) {c d : Callback τ φ}
    (hadded : List.Sublist [.added c, .added d] s.history) : c.id < d.id := by
  obtain ⟨r₁, r₂, heq, hc, hd⟩ := List.cons_sublist_iff.mp hadded
  have hincreasing := h.increasing
  rw [heq] at hincreasing
  obtain ⟨l, -, hlt⟩ := hincreasing.right (List.singleton_sublist.mp hd)
  exact hlt c (List.mem_append_left _ hc)

end InOrder

section Runs

variable [DecidableEq φ] {slow : τ → τ → τ → τ → Bool}

theorem inOrder_step {s s' : State τ φ} {l : Step τ φ} (h : InOrder s) (hl : s.Alone l)
    (hs : State.step slow s l = some s') : InOrder s' := by
  rcases State.step_cases hs with hq | ⟨func, t, rfl, rfl⟩ | ⟨c, rfl, hc, rfl⟩ | ⟨c, i, hi, rfl⟩ | ⟨c, hm, rfl⟩
  · exact h.quiet hq
  · exact h.addCallback hl func t
  · exact h.removeCallback hc hl
  · exact h.returned hi
  · exact h.run hm

theorem inOrder_of_alone {t₀ now : τ} {s : State τ φ}
    (h : ((State.lts slow t₀ now).restrict State.Alone).Reachable s) : InOrder s := by
  have hind : ((State.lts slow t₀ now).restrict (State.Alone (φ := φ))).Inductive InOrder :=
    ⟨fun s hs => hs ▸ .new t₀ now, fun _ _ _ hi hs => inOrder_step hi hs.1 hs.2⟩
  exact hind.reachable s h

/-- **The queue refines a priority queue**, ordered by time and id, in every run
whose calls come one at a time. Its history is one of the abstract queue; every
callback that runs is the least that is pending; with equal times they run in
the order in which they were added; none runs twice, or after its removal; and
what is queued, or taken by `main`, is what was added and neither ran nor was
removed. -/
theorem queue_refines (slow : τ → τ → τ → τ → Bool) (t₀ now : τ) (s : State τ φ)
    (h : ((State.lts slow t₀ now).restrict State.Alone).Reachable s) :
    (queue Callback.key).Run ∅ s.history {c | c ∈ s.callbacks ++ s.main.held} ∧
      (∀ h₁ c h₂, s.history = h₁ ++ .taken c :: h₂ → Pending h₁ c ∧ ∀ d, Pending h₁ d → c.key ≤ d.key) ∧
      (∀ c d : Callback τ φ, c.time = d.time → List.Sublist [.added c, .added d] s.history →
        .taken c ∈ s.history → .taken d ∈ s.history → List.Sublist [.taken c, .taken d] s.history) ∧
      (∀ h₁ c h₂, s.history = h₁ ++ .taken c :: h₂ → .taken c ∉ h₂) ∧
      (∀ h₁ c h₂, s.history = h₁ ++ .removed c :: h₂ → .taken c ∉ h₂) ∧
      (∀ c, c ∈ s.callbacks ++ s.main.held ↔
        .added c ∈ s.history ∧ .removed c ∉ s.history ∧ .taken c ∉ s.history) ∧
      (s.callbacks ++ s.main.held).Nodup := by
  have hinv := inOrder_of_alone h
  have hacc := hinv.accounted
  have hord := hinv.ordered
  refine ⟨?_, fun h₁ c h₂ heq => ?_, fun c d htime hadded hc hd => ?_, fun h₁ c h₂ heq => ?_,
    fun h₁ c h₂ heq => ?_, fun c => ?_, hinv.nodup⟩
  · have hrun := run_of_history hacc hord
    rwa [show {c | Pending s.history c} = {c | c ∈ s.callbacks ++ s.main.held} from
      Set.ext fun c => (hinv.pending c).symm] at hrun
  · rw [heq] at hacc hord
    exact ⟨hacc.at, hord.at⟩
  · have hkey : c.key < d.key := Prod.Lex.lt_iff.mpr (.inr ⟨htime, hinv.id_lt hadded⟩)
    exact taken_in_order hacc hord hadded hkey hc hd
  · rw [heq] at hacc
    exact hacc.not_taken_again
  · rw [heq] at hacc
    exact hacc.not_taken_after_removed
  · rw [hinv.pending c]
    exact ⟨fun hp => ⟨hp.added, hp.not_removed, hp.not_taken⟩, fun ⟨ha, hr, ht⟩ => ⟨ha, hr, ht⟩⟩

end Runs

/-- The first callback comes too early and goes back into the queue. It adds
another one at its own time and removes one of the two at time 5. -/
def threeRun : List (Step Int Unit) :=
  [.add () (some 5), .add () (some 5), .add () (some 1), .start, .enter, .look, .pop, .check, .putBack, .tick 9,
    .enter, .look, .pop, .check, .publish, .stamp, .run, .add () none, .remove ⟨5, 0, ()⟩, .leave 0, .finish,
    .enter, .look, .pop, .check, .publish, .stamp, .run, .finish, .tick 20, .enter, .look, .pop, .check, .publish,
    .stamp, .run]

theorem queue_refines_three : ∃ s : State Int Unit,
    ((State.lts (tooFast 1) 0 0).restrict State.Alone).Reachable s ∧ s.callbacks = [] ∧
      s.history = [.added ⟨5, 0, ()⟩, .added ⟨5, 1, ()⟩, .added ⟨1, 2, ()⟩, .taken ⟨1, 2, ()⟩, .added ⟨1, 3, ()⟩,
        .removed ⟨5, 0, ()⟩, .returned ⟨5, 0, ()⟩, .taken ⟨1, 3, ()⟩, .taken ⟨5, 1, ()⟩] ∧
      (∀ h₁ c h₂, s.history = h₁ ++ .taken c :: h₂ → Pending h₁ c ∧ ∀ d, Pending h₁ d → c.key ≤ d.key) := by
  obtain ⟨s, hs, hc, hh⟩ : ∃ s, LTS.exec (LTS.guarded State.Alone (State.step (tooFast 1))) (State.new 0 0)
      threeRun = some s ∧ s.callbacks = [] ∧
        s.history = [.added ⟨5, 0, ()⟩, .added ⟨5, 1, ()⟩, .added ⟨1, 2, ()⟩, .taken ⟨1, 2, ()⟩, .added ⟨1, 3, ()⟩,
          .removed ⟨5, 0, ()⟩, .returned ⟨5, 0, ()⟩, .taken ⟨1, 3, ()⟩, .taken ⟨5, 1, ()⟩] := ⟨_, rfl, rfl, rfl⟩
  have hreach : ((State.lts (tooFast 1) 0 0).restrict State.Alone).Reachable s := .of_guarded rfl hs
  exact ⟨s, hreach, hc, hh, (queue_refines (tooFast 1) 0 0 s hreach).2.1⟩

end Catkit2.L5.SimulatorLoop
