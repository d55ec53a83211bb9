import Mathlib.Data.List.Basic
import Mathlib.Tactic.TypeStar

/-!
# The last of a sequence of writes

Updates touch paths and give values to some of those they touch. What holds a
value at a path after each update gave the paths it touches and left the others
is the last update that touches the path.

* `Holds.step`: one more update.
-/
namespace Catkit2.LastWrite

variable {υ π ω : Type*} (gives : υ → π → Option ω) (touches : υ → π → Bool)

/-- The last of the updates that touches the path gives it the value. -/
def Last (updates : List υ) (p : π) (v : ω) : Prop :=
  ∃ pre u post, updates = pre ++ u :: post ∧ touches u p = true ∧ gives u p = some v ∧
    ∀ w ∈ post, touches w p = false

/-- Every path holds what the last update gave. -/
def Holds (updates : List υ) (get : π → Option ω) : Prop :=
  ∀ p v, get p = some v ↔ Last gives touches updates p v

variable {gives touches}

theorem not_last_nil (p : π) (v : ω) : ¬ Last gives touches [] p v := by
  rintro ⟨pre, u, post, h, -⟩
  simp at h

theorem concat_eq_append_cons {α : Type*} {l pre post : List α} {a b : α}
    (h : l ++ [a] = pre ++ b :: post) :
    (l = pre ∧ a = b ∧ post = []) ∨ ∃ post', l = pre ++ b :: post' ∧ post = post' ++ [a] := by
  rcases List.eq_nil_or_concat' post with rfl | ⟨post, x, rfl⟩
  · obtain ⟨hl, hx⟩ := List.append_inj' h rfl
    exact .inl ⟨hl, List.head_eq_of_cons_eq hx, rfl⟩
  · rw [← List.cons_append, ← List.append_assoc] at h
    obtain ⟨hl, hx⟩ := List.append_inj' h rfl
    exact .inr ⟨post, hl, by rw [List.head_eq_of_cons_eq hx]⟩

theorem last_concat (updates : List υ) (u : υ) (p : π) (v : ω) :
    Last gives touches (updates ++ [u]) p v ↔
      if touches u p then gives u p = some v else Last gives touches updates p v := by
  by_cases hu : touches u p = true
  · rw [if_pos hu]
    constructor
    · rintro ⟨pre, w, post, h, hw, hv, hpost⟩
      rcases concat_eq_append_cons h with ⟨-, rfl, -⟩ | ⟨post, -, rfl⟩
      · exact hv
      · rw [hpost u (by simp)] at hu
        cases hu
    · exact fun hv => ⟨updates, u, [], rfl, hu, hv, by simp⟩
  · rw [if_neg hu]
    constructor
    · rintro ⟨pre, w, post, h, hw, hv, hpost⟩
      rcases concat_eq_append_cons h with ⟨-, rfl, -⟩ | ⟨post, rfl, rfl⟩
      · exact absurd hw hu
      · exact ⟨pre, w, post, rfl, hw, hv, fun y hy => hpost y (List.mem_append_left _ hy)⟩
    · rintro ⟨pre, w, post, rfl, hw, hv, hpost⟩
      refine ⟨pre, w, post ++ [u], by simp, hw, hv, fun y hy => ?_⟩
      rcases List.mem_append.mp hy with hy | hy
      · exact hpost y hy
      · rw [List.mem_singleton.mp hy]
        exact Bool.eq_false_iff.mpr hu

theorem holds_nil {get : π → Option ω} (h : ∀ p, get p = none) : Holds gives touches [] get := by
  intro p v
  simp only [h, reduceCtorEq, not_last_nil]

theorem Holds.step {updates : List υ} {get get' : π → Option ω} (h : Holds gives touches updates get)
    {u : υ} (hu : ∀ p, get' p = if touches u p then gives u p else get p) :
    Holds gives touches (updates ++ [u]) get' := by
  intro p v
  rw [hu, last_concat]
  split
  · exact Iff.rfl
  · exact h p v

end Catkit2.LastWrite
