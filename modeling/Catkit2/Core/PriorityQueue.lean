import Catkit2.Core.LTS
import Mathlib.Data.List.Induction
import Mathlib.Data.Set.Insert
import Mathlib.Order.Lattice

/-!
# Priority queues by their history

What a priority queue does to the outside: entries are added, removed and
taken, and a call to remove one returns. An entry is pending when it was added
and neither removed nor taken; a queue takes pending entries only, the least
one by `key`.

* `Each`: every event of a log meets a condition on it and on the log before it.
* `Accounted`: what is taken was pending, and nothing is added twice. Then
  nothing is taken again, or after its removal (`not_taken_after_removed`,
  `not_taken_after_returned`).
* `Ordered`: what is taken was least. Then what was added first and comes first
  is taken first (`taken_in_order`).
* `queue`: the queue itself, whose state is the set of what is pending. Its runs
  have the histories that are accounted and ordered (`run_of_history`).
-/
namespace Catkit2.PriorityQueue

universe u v

/-! ## Logs -/

section Each

variable {E : Type u} {P : List E → E → Prop} {log l₁ l₂ : List E} {e : E}

/-- Every event of the log meets `P`, which is given the log before it. -/
def Each (P : List E → E → Prop) (log : List E) : Prop := ∀ l₁ e l₂, log = l₁ ++ e :: l₂ → P l₁ e

theorem Each.nil : Each P [] := by
  intro l₁ e l₂ h
  cases l₁ <;> cases h

theorem Each.snoc (h : Each P log) (he : P log e) : Each P (log ++ [e]) := by
  intro l₁ e' l₂ heq
  rcases List.eq_nil_or_concat l₂ with rfl | ⟨l, x, rfl⟩
  · obtain ⟨rfl, hx⟩ := List.append_inj' heq rfl
    cases hx
    exact he
  · rw [List.concat_eq_append, ← List.cons_append, ← List.append_assoc] at heq
    obtain ⟨hlog, -⟩ := List.append_inj' heq rfl
    exact h l₁ e' l hlog

theorem Each.left (h : Each P (l₁ ++ l₂)) : Each P l₁ := by
  intro l e l' heq
  exact h l e (l' ++ l₂) (by rw [heq, List.append_assoc, List.cons_append])

theorem Each.at (h : Each P (l₁ ++ e :: l₂)) : P l₁ e := h l₁ e l₂ rfl

theorem Each.mem (h : Each P log) (he : e ∈ log) : ∃ l, l <+: log ∧ P l e := by
  obtain ⟨l, l', rfl⟩ := List.append_of_mem he
  exact ⟨l, List.prefix_append _ _, h.at⟩

/-- An event of the second part, and what is before it. -/
theorem Each.right (h : Each P (l₁ ++ l₂)) (he : e ∈ l₂) : ∃ l, l <+: l₂ ∧ P (l₁ ++ l) e := by
  obtain ⟨l, l', rfl⟩ := List.append_of_mem he
  exact ⟨l, List.prefix_append _ _, h (l₁ ++ l) e l' (by rw [List.append_assoc])⟩

end Each

/-! ## Histories -/

/-- `returned a`: a call to remove `a` returns. -/
inductive QueueEvent (α : Type u) where
  | added (a : α)
  | removed (a : α)
  | returned (a : α)
  | taken (a : α)
  deriving DecidableEq

variable {α : Type u} {a b : α} {h l₁ l₂ : List (QueueEvent α)}

structure Pending (h : List (QueueEvent α)) (a : α) : Prop where
  added : .added a ∈ h
  not_removed : .removed a ∉ h
  not_taken : .taken a ∉ h

theorem pending_removed : Pending (h ++ [.removed b]) a ↔ Pending h a ∧ a ≠ b := by
  constructor
  · intro hp
    have hne : a ≠ b := by
      rintro rfl
      exact hp.not_removed (by simp)
    exact ⟨⟨by simpa using hp.added, fun hm => hp.not_removed (by simp [hm]),
      fun hm => hp.not_taken (by simp [hm])⟩, hne⟩
  · rintro ⟨hp, hne⟩
    exact ⟨by simp [hp.added], by simp [hp.not_removed, hne], by simp [hp.not_taken]⟩

theorem pending_taken : Pending (h ++ [.taken b]) a ↔ Pending h a ∧ a ≠ b := by
  constructor
  · intro hp
    have hne : a ≠ b := by
      rintro rfl
      exact hp.not_taken (by simp)
    exact ⟨⟨by simpa using hp.added, fun hm => hp.not_removed (by simp [hm]),
      fun hm => hp.not_taken (by simp [hm])⟩, hne⟩
  · rintro ⟨hp, hne⟩
    exact ⟨by simp [hp.added], by simp [hp.not_removed], by simp [hp.not_taken, hne]⟩

theorem pending_returned : Pending (h ++ [.returned b]) a ↔ Pending h a := by
  constructor
  · intro hp
    exact ⟨by simpa using hp.added, fun hm => hp.not_removed (by simp [hm]),
      fun hm => hp.not_taken (by simp [hm])⟩
  · intro hp
    exact ⟨by simp [hp.added], by simp [hp.not_removed], by simp [hp.not_taken]⟩

/-- An entry that was neither removed nor taken before it was added. -/
theorem pending_added (hr : .removed b ∉ h) (ht : .taken b ∉ h) :
    Pending (h ++ [.added b]) a ↔ Pending h a ∨ a = b := by
  constructor
  · intro hp
    have hnr : .removed a ∉ h := fun hm => hp.not_removed (by simp [hm])
    have hnt : .taken a ∉ h := fun hm => hp.not_taken (by simp [hm])
    have ha : .added a ∈ h ∨ a = b := by simpa using hp.added
    exact ha.imp (fun ha => ⟨ha, hnr, hnt⟩) id
  · rintro (hp | rfl)
    · exact ⟨by simp [hp.added], by simp [hp.not_removed], by simp [hp.not_taken]⟩
    · exact ⟨by simp, by simpa using hr, by simpa using ht⟩

/-- What an event needs of the history before it. -/
def Allowed (h : List (QueueEvent α)) : QueueEvent α → Prop
  | .added a => .added a ∉ h
  | .removed a => .added a ∈ h
  | .returned a => .removed a ∈ h
  | .taken a => Pending h a

def Accounted (h : List (QueueEvent α)) : Prop := Each Allowed h

/-- An entry that is taken is the least that is pending. -/
def Least {κ : Type v} [LE κ] (key : α → κ) (h : List (QueueEvent α)) : QueueEvent α → Prop
  | .taken a => ∀ b, Pending h b → key a ≤ key b
  | _ => True

def Ordered {κ : Type v} [LE κ] (key : α → κ) (h : List (QueueEvent α)) : Prop := Each (Least key) h

/-- What was added before is in front of the first time it is taken. -/
theorem Accounted.added_of_taken (hh : Accounted h) (ht : .taken a ∈ h) : .added a ∈ h := by
  obtain ⟨l, hl, hp⟩ := Each.mem hh ht
  exact hl.subset hp.added

theorem Accounted.added_of_removed (hh : Accounted h) (hr : .removed a ∈ h) : .added a ∈ h := by
  obtain ⟨l, hl, hadded⟩ := Each.mem hh hr
  exact hl.subset hadded

theorem Accounted.not_taken_again (hh : Accounted (l₁ ++ .taken a :: l₂)) : .taken a ∉ l₂ := by
  intro ht
  rw [List.append_cons] at hh
  obtain ⟨l, -, hp⟩ := hh.right ht
  exact hp.not_taken (by simp)

theorem Accounted.not_taken_after_removed (hh : Accounted (l₁ ++ .removed a :: l₂)) : .taken a ∉ l₂ := by
  intro ht
  rw [List.append_cons] at hh
  obtain ⟨l, -, hp⟩ := hh.right ht
  exact hp.not_removed (by simp)

theorem Accounted.not_taken_after_returned (hh : Accounted (l₁ ++ .returned a :: l₂)) : .taken a ∉ l₂ := by
  intro ht
  have hr : .removed a ∈ l₁ := hh.at
  rw [List.append_cons] at hh
  obtain ⟨l, -, hp⟩ := hh.right ht
  exact hp.not_removed (by simp [hr])

/-- An entry is added once. -/
theorem Accounted.not_added_again (hh : Accounted (l₁ ++ l₂)) (ha : .added a ∈ l₁) : .added a ∉ l₂ := by
  intro ha'
  obtain ⟨l, -, hn⟩ := hh.right ha'
  exact hn (List.mem_append_left _ ha)

/-- A pair of events, the second one not in the second part. -/
theorem pair_sublist_left {E : Type u} {x y : E} {l₁ l₂ : List E} (hs : List.Sublist [x, y] (l₁ ++ l₂))
    (hy : y ∉ l₂) : x ∈ l₁ := by
  obtain ⟨s₁, s₂, heq, h₁, h₂⟩ := List.sublist_append_iff.mp hs
  rcases s₁ with _ | ⟨z, s₁⟩
  · rw [List.nil_append] at heq
    exact absurd (h₂.subset (heq ▸ by simp)) hy
  · obtain rfl : x = z := by
      rw [List.cons_append] at heq
      exact (List.cons.inj heq).1
    exact h₁.subset List.mem_cons_self

/-- **What was added first, and comes first, is taken first.** -/
theorem taken_in_order {κ : Type v} [PartialOrder κ] {key : α → κ} (hh : Accounted h) (ho : Ordered key h)
    (hadded : List.Sublist [.added a, .added b] h) (hkey : key a < key b) (ha : .taken a ∈ h)
    (hb : .taken b ∈ h) : List.Sublist [.taken a, .taken b] h := by
  obtain ⟨l₁, l₂, rfl⟩ := List.append_of_mem hb
  have hpb : Pending l₁ b := hh.at
  have hfirst : .added a ∈ l₁ := pair_sublist_left hadded (hh.not_added_again hpb.added)
  have hbefore : .taken a ∈ l₁ := by
    by_contra hnot
    have hafter : .taken a ∈ l₂ := by
      rcases List.mem_append.mp ha with ha | ha
      · exact absurd ha hnot
      · rcases List.mem_cons.mp ha with ha | ha
        · cases ha
          exact absurd hkey (lt_irrefl _)
        · exact ha
    -- `a` was pending when `b` was taken
    have hremoved : .removed a ∉ l₁ := by
      intro hr
      obtain ⟨m₁, m₂, rfl⟩ := List.append_of_mem hr
      rw [List.append_assoc, List.cons_append] at hh
      exact hh.not_taken_after_removed (by simp [hafter])
    exact absurd (ho.at a ⟨hfirst, hremoved, hnot⟩) (not_le_of_gt hkey)
  obtain ⟨m₁, m₂, rfl⟩ := List.append_of_mem hbefore
  have hsub : List.Sublist [QueueEvent.taken b] (m₂ ++ .taken b :: l₂) := List.singleton_sublist.mpr (by simp)
  rw [List.append_assoc, List.cons_append]
  exact (hsub.cons_cons _).trans (List.sublist_append_right _ _)

/-! ## The queue -/

variable {κ : Type v} [LE κ] {key : α → κ}

def next (key : α → κ) (s : Set α) : QueueEvent α → Set α → Prop
  | .added a, s' => a ∉ s ∧ s' = insert a s
  | .removed a, s' => s' = s \ {a}
  | .returned _, s' => s' = s
  | .taken a, s' => a ∈ s ∧ (∀ b ∈ s, key a ≤ key b) ∧ s' = s \ {a}

/-- The abstract priority queue: a set of entries. -/
def queue (key : α → κ) : LTS (Set α) (QueueEvent α) := ⟨(· = ∅), next key⟩

/-- **A history that is accounted and ordered is a run of the queue.** -/
theorem run_of_history (hh : Accounted h) (ho : Ordered key h) :
    (queue key).Run ∅ h {a | Pending h a} := by
  induction h using List.reverseRecOn with
  | nil =>
    have hempty : {a | Pending ([] : List (QueueEvent α)) a} = ∅ := by
      refine Set.eq_empty_of_forall_notMem fun a hp => ?_
      cases Pending.added hp
    rw [hempty]
    exact .nil _
  | append_singleton h e ih =>
    refine (ih hh.left ho.left).snoc ?_
    have hallowed : Allowed h e := hh.at
    have hleast : Least key h e := ho.at
    cases e with
    | added a =>
      refine ⟨fun hp => hallowed hp.added, Set.ext fun b => ?_⟩
      have hr : .removed a ∉ h := fun hm => hallowed (Accounted.added_of_removed hh.left hm)
      have ht : .taken a ∉ h := fun hm => hallowed (Accounted.added_of_taken hh.left hm)
      exact (pending_added hr ht).trans Or.comm
    | removed a => exact Set.ext fun b => pending_removed
    | returned a => exact Set.ext fun b => pending_returned
    | taken a => exact ⟨hallowed, hleast, Set.ext fun b => pending_taken⟩

end Catkit2.PriorityQueue
