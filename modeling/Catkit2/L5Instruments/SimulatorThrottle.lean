import Catkit2.L5Instruments.SimulatorLoop
import Mathlib.Algebra.Order.Ring.Int
import Mathlib.Tactic.Linarith
import Mathlib.Tactic.Ring

/-!
# The pace of simulated time (catkit2/simulator/simulator.py)

`main` compares each step of simulated time with the wall clock since the last
one. What is compared is read before the time is published, and the reference
for the next step after it, so that the steps on the clock do not overlap.

Arithmetic is exact, and the wall clock does not go back.

* `time_within_factor`: simulated time is never ahead of `max_time_factor` times
  the wall clock.
-/
namespace Catkit2.L5.SimulatorLoop

variable {τ φ : Type} [CommRing τ] [LinearOrder τ]

/-- What the pace asks of `main`, since it started at the simulated time `t₀` and
the clock `w₀`: the time stream keeps to the last reference, or what will be
published to the clock. -/
def State.Bound (f t₀ w₀ : τ) (s : State τ φ) : MainAt τ φ → Prop
  | .due callback => callback.time - t₀ ≤ f * (s.now - w₀)
  | .published _ => True
  | _ => s.time - t₀ ≤ f * (s.lastUpdateTime - w₀)

def State.Paced (f : τ) (s : State τ φ) : Prop :=
  ∀ t₀ w₀, s.started = some (t₀, w₀) → s.time - t₀ ≤ f * (s.now - w₀) ∧ s.Bound f t₀ w₀ s.main

namespace State.Paced

variable {f : τ} {s s' : State τ φ}

/-- Nothing but the queue changes, and `main` does not come closer to a publication. -/
theorem of_bound (h : s.Paced f) (hstarted : s'.started = s.started) (htime : s'.time = s.time)
    (hnow : s'.now = s.now)
    (hbound : ∀ t₀ w₀, s.Bound f t₀ w₀ s.main → s'.Bound f t₀ w₀ s'.main) : s'.Paced f := by
  intro t₀ w₀ hs
  obtain ⟨hup, hmain⟩ := h t₀ w₀ (hstarted ▸ hs)
  exact ⟨by rwa [htime, hnow], hbound t₀ w₀ hmain⟩

theorem start (f : τ) (s : State τ φ) :
    State.Paced f { s with lastUpdateTime := s.now, started := some (s.time, s.now), main := .top } := by
  intro t₀ w₀ hs
  cases hs
  have hzero : s.time - s.time ≤ f * (s.now - s.now) := by rw [sub_self, sub_self, mul_zero]
  exact ⟨hzero, hzero⟩

theorem publish (h : s.Paced f) {c : Callback τ φ} (hm : s.main = .due c) :
    State.Paced f { s with time := c.time, main := .published c } := by
  intro t₀ w₀ hs
  obtain ⟨-, hmain⟩ := h t₀ w₀ hs
  rw [hm] at hmain
  exact ⟨hmain, trivial⟩

/-- The new reference is not before the publication. -/
theorem stamp (h : s.Paced f) (c : Callback τ φ) :
    State.Paced f { s with lastUpdateTime := s.now, main := .stamped c } := by
  intro t₀ w₀ hs
  obtain ⟨hup, -⟩ := h t₀ w₀ hs
  exact ⟨hup, hup⟩

variable [IsStrictOrderedRing τ]

theorem tick (h : s.Paced f) (hf : 0 ≤ f) {now : τ} (hnow : s.now ≤ now) : ({ s with now } : State τ φ).Paced f := by
  intro t₀ w₀ hs
  obtain ⟨hup, hmain⟩ := h t₀ w₀ hs
  have hmono : f * (s.now - w₀) ≤ f * (now - w₀) := mul_le_mul_of_nonneg_left (by linarith) hf
  refine ⟨hup.trans hmono, ?_⟩
  change State.Bound f t₀ w₀ _ s.main
  revert hmain
  cases s.main with
  | due c => exact fun hmain => hmain.trans hmono
  | _ => exact id

/-- A callback that is not too early keeps to the clock. -/
theorem check (h : s.Paced f) {c : Callback τ φ} (hm : s.main = .popped c) :
    State.Paced f { s with
      main := if tooFast f c.time s.time s.now s.lastUpdateTime then .tooFast c else .due c } := by
  refine h.of_bound rfl rfl rfl fun t₀ w₀ hmain => ?_
  rw [hm] at hmain
  have hlast : s.time - t₀ ≤ f * (s.lastUpdateTime - w₀) := hmain
  dsimp only
  split
  · exact hlast
  · rename_i hslow
    have hstep : c.time - s.time ≤ f * (s.now - s.lastUpdateTime) := by simpa [SimulatorLoop.tooFast] using hslow
    change c.time - t₀ ≤ f * (s.now - w₀)
    calc c.time - t₀ = (c.time - s.time) + (s.time - t₀) := by ring
      _ ≤ f * (s.now - s.lastUpdateTime) + f * (s.lastUpdateTime - w₀) := add_le_add hstep hlast
      _ = f * (s.now - w₀) := by ring

end State.Paced

variable [IsStrictOrderedRing τ] [DecidableEq φ]

theorem paced_step {f : τ} {s s' : State τ φ} {l : Step τ φ} (hf : 0 ≤ f) (h : s.Paced f) (hl : s.Forward l)
    (hs : State.step (tooFast f) s l = some s') : s'.Paced f := by
  cases l with
  | tick now =>
    cases hs
    exact h.tick hf hl
  | shutDown | add func t =>
    cases hs
    exact h.of_bound rfl rfl rfl fun _ _ => id
  | remove c | leave i =>
    simp only [State.step] at hs
    split at hs
    · cases hs
      exact h.of_bound rfl rfl rfl fun _ _ => id
    · cases hs
  | start =>
    simp only [State.step] at hs
    split at hs
    · cases hs
      exact .start f s
    · cases hs
  | check =>
    simp only [State.step] at hs
    split at hs
    · rename_i c hm
      cases hs
      exact h.check hm
    · cases hs
  | publish =>
    simp only [State.step] at hs
    split at hs
    · rename_i c hm
      cases hs
      exact h.publish hm
    · cases hs
  | stamp =>
    simp only [State.step] at hs
    split at hs
    · rename_i c _
      cases hs
      exact h.stamp c
    · cases hs
  | enter | look =>
    simp only [State.step] at hs
    split at hs
    · rename_i hm
      cases hs
      refine h.of_bound rfl rfl rfl fun t₀ w₀ hmain => ?_
      rw [hm] at hmain
      dsimp only
      split <;> exact hmain
    · cases hs
  | pop =>
    simp only [State.step] at hs
    split at hs
    · rename_i hm
      split at hs
      all_goals
        cases hs
        refine h.of_bound rfl rfl rfl fun t₀ w₀ hmain => ?_
        rw [hm] at hmain
        exact hmain
    · cases hs
  | putBack | run | finish =>
    simp only [State.step] at hs
    split at hs
    · rename_i hm
      cases hs
      refine h.of_bound rfl rfl rfl fun t₀ w₀ hmain => ?_
      rw [hm] at hmain
      exact hmain
    · cases hs
  | raise =>
    simp only [State.step] at hs
    split at hs
    · rename_i hm
      cases hs
      refine h.of_bound rfl rfl rfl fun t₀ w₀ hmain => ?_
      rw [hm] at hmain
      exact hmain
    · rename_i hm
      cases hs
      refine h.of_bound rfl rfl rfl fun t₀ w₀ hmain => ?_
      rw [hm] at hmain
      exact hmain
    · cases hs

/-- **Simulated time keeps to the wall clock**: since `main` started it has
advanced by at most `f` times what the clock has. -/
theorem time_within_factor (f : τ) (hf : 0 ≤ f) (t₀ now : τ) (s : State τ φ)
    (h : ((State.lts (tooFast f) t₀ now).restrict State.Forward).Reachable s) :
    ∀ t₁ w₁, s.started = some (t₁, w₁) → s.time - t₁ ≤ f * (s.now - w₁) := by
  have hind : ((State.lts (tooFast f) t₀ now).restrict (State.Forward (φ := φ))).Inductive (State.Paced f) :=
    ⟨fun s hs => hs ▸ fun _ _ hs => (by cases hs), fun _ _ _ hi hs => paced_step hf hi hs.1 hs.2⟩
  exact fun t₁ w₁ hs => (hind.reachable s h t₁ w₁ hs).1

/-- A callback for time 20 that waits until the clock is there, at double speed. -/
def waitRun : List (Step Int Unit) :=
  [.tick 3, .add () (some 20), .start, .enter, .look, .pop, .check, .putBack, .tick 13, .enter, .look, .pop, .check,
    .tick 14, .publish]

theorem time_within_factor_wait : ∃ s : State Int Unit,
    ((State.lts (tooFast 2) 0 0).restrict State.Forward).Reachable s ∧ s.started = some (0, 3) ∧
      s.time = 20 ∧ s.now = 14 ∧ s.time - 0 ≤ 2 * (s.now - 3) := by
  obtain ⟨s, hs, hstarted, htime, hnow⟩ : ∃ s, LTS.exec (LTS.guarded State.Forward (State.step (tooFast 2)))
      (State.new 0 0) waitRun = some s ∧ s.started = some (0, 3) ∧ s.time = 20 ∧ s.now = 14 :=
    ⟨_, rfl, rfl, rfl, rfl⟩
  have hreach : ((State.lts (tooFast 2) 0 0).restrict State.Forward).Reachable s := .of_guarded rfl hs
  exact ⟨s, hreach, hstarted, htime, hnow,
    time_within_factor 2 (by decide) 0 0 s hreach 0 3 hstarted⟩

end Catkit2.L5.SimulatorLoop
