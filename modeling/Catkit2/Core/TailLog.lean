import Mathlib.Data.Nat.Basic
import Mathlib.Tactic.TypeStar

/-!
# An append-only log seen through a bounded tail

The entries are never changed or dropped; what an observer sees is the tail:
the newest entries, at most `cap` of them, and none from before the last
`recut`. An entry is named by its position in the log.

`oldest_append` and `oldest_recut` say how the two operations move the left
edge of the tail; the right edge is the length of the log.
-/
namespace Catkit2

/-- `cut` is the length of the log at the last `recut`. -/
structure TailLog (α : Type*) where
  entries : List α
  cut : Nat
  cap : Nat
  cut_le : cut ≤ entries.length

namespace TailLog

variable {α : Type*}

def empty (cap : Nat) : TailLog α := ⟨[], 0, cap, Nat.le_refl 0⟩

def append (l : TailLog α) (a : α) : TailLog α where
  entries := l.entries ++ [a]
  cut := l.cut
  cap := l.cap
  cut_le := by have := l.cut_le; simp; omega

/-- Hide everything logged so far, and show at most `cap` entries from now on. -/
def recut (l : TailLog α) (cap : Nat) : TailLog α := ⟨l.entries, l.entries.length, cap, Nat.le_refl _⟩

/-- Entries appended since the last `recut`. -/
def count (l : TailLog α) : Nat := l.entries.length - l.cut

/-- The first position of the tail: the tail has `min count cap` entries. -/
def oldest (l : TailLog α) : Nat := l.entries.length - min l.count l.cap

/-- Position `i` is one of the `min count cap` newest entries. -/
def Visible (l : TailLog α) (i : Nat) : Prop := l.oldest ≤ i ∧ i < l.entries.length

@[simp] theorem entries_append (l : TailLog α) (a : α) : (l.append a).entries = l.entries ++ [a] := rfl
@[simp] theorem cap_append (l : TailLog α) (a : α) : (l.append a).cap = l.cap := rfl

theorem length_le_oldest_add (l : TailLog α) : l.entries.length ≤ l.oldest + l.cap := by
  unfold oldest; omega

@[simp] theorem oldest_empty (cap : Nat) : (empty cap : TailLog α).oldest = 0 := by
  simp [oldest, empty]

@[simp] theorem oldest_recut (l : TailLog α) (c : Nat) : (l.recut c).oldest = l.entries.length := by
  simp [oldest, count, recut]

/-- The tail is full exactly when it holds `cap` entries. -/
theorem full_iff (l : TailLog α) : l.entries.length - l.oldest = l.cap ↔ l.cap ≤ l.count := by
  have := l.cut_le
  unfold oldest count; omega

/-- Appending drops the oldest visible entry when the tail is full. -/
theorem oldest_append (l : TailLog α) (a : α) :
    (l.append a).oldest = if l.entries.length - l.oldest = l.cap then l.oldest + 1 else l.oldest := by
  have hc := l.cut_le
  have e1 : (l.append a).entries.length = l.entries.length + 1 := by simp
  have e2 : (l.append a).count = l.count + 1 := by
    unfold count; rw [e1]; show _ - l.cut = _; omega
  split
  · rename_i h
    rw [full_iff] at h
    unfold oldest; rw [e1, e2, cap_append]; unfold count at *; omega
  · rename_i h
    rw [full_iff] at h
    unfold oldest; rw [e1, e2, cap_append]; unfold count at *; omega

/-- The entry just appended is visible. -/
theorem visible_append (l : TailLog α) (a : α) (h : 1 ≤ l.cap) :
    (l.append a).Visible l.entries.length := by
  have hc := l.cut_le
  have e1 : (l.append a).entries.length = l.entries.length + 1 := by simp
  have e2 : (l.append a).count = l.entries.length + 1 - l.cut := by
    unfold count; rw [e1]; rfl
  refine ⟨?_, by omega⟩
  unfold oldest
  rw [e1, e2, cap_append]
  omega

theorem getElem?_append_left (l : TailLog α) (a : α) {i : Nat} (h : i < l.entries.length) :
    (l.append a).entries[i]? = l.entries[i]? := by
  rw [entries_append, List.getElem?_append_left h]

theorem getElem?_append_self (l : TailLog α) (a : α) :
    (l.append a).entries[l.entries.length]? = some a := by
  simp

end TailLog

end Catkit2
