import Mathlib.Tactic.TypeStar

/-!
# Threads with a deadline

A thread that renews something from time to time, and takes a bounded time for each
thing it does in between. `origin x` says that what it found last is good until `x`. The
bound on how old that may be is the sum of what the thread may take since: `MeetsDeadline` keeps
it for each place of the thread, with the time at which it got there.

* `MeetsDeadline.goes`, `MeetsDeadline.renew`: from one place to the next, and once it is renewed.
* `MeetsDeadline.le`: how far the clock can be past what was found.
-/
namespace Catkit2

/-- The thread got where it is at `since`, at most `late` after what it found last, and stays
there for at most `patience`. -/
structure MeetsDeadline (origin : Nat → Prop) (late patience since now : Nat) : Prop where
  origin : ∃ x, origin x ∧ since ≤ x + late
  now : now ≤ since + patience

namespace MeetsDeadline

variable {origin origin' : Nat → Prop} {late late' patience patience' since now next : Nat}

theorem mono (h : MeetsDeadline origin late patience since now) (ho : ∀ x, origin x → origin' x) :
    MeetsDeadline origin' late patience since now := by
  obtain ⟨x, hx, hle⟩ := h.origin
  exact ⟨⟨x, ho x hx, hle⟩, h.now⟩

/-- Time passes, within the deadline. -/
theorem tick (h : MeetsDeadline origin late patience since now) (hnext : next ≤ since + patience) :
    MeetsDeadline origin late patience since next :=
  ⟨h.origin, hnext⟩

/-- The thread gets to the next place now. -/
theorem goes (h : MeetsDeadline origin late patience since now) (hlate : late + patience ≤ late') :
    MeetsDeadline origin late' patience' now now := by
  obtain ⟨x, hx, hle⟩ := h.origin
  have hnow := h.now
  exact ⟨⟨x, hx, by omega⟩, Nat.le_add_right _ _⟩

/-- What it found now is good for a while. -/
theorem renew {x : Nat} (hx : origin x) (hle : now ≤ x + late) : MeetsDeadline origin late patience now now :=
  ⟨⟨x, hx, hle⟩, Nat.le_add_right _ _⟩

theorem le (h : MeetsDeadline origin late patience since now) : ∃ x, origin x ∧ now ≤ x + late + patience := by
  obtain ⟨x, hx, hle⟩ := h.origin
  have hnow := h.now
  exact ⟨x, hx, by omega⟩

end MeetsDeadline

end Catkit2
