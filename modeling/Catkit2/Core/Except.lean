import Mathlib.Data.List.Forall2

/-!
# Computations that may raise

What it takes for a sequence of fallible steps to return: each of them
returned (`bind_ok_iff`), and for a fold, what relates its start to its end
(`foldlM_ok`), and when it returns at all (`foldlM_ok_or_error`). For a
computation made for each element, see `mapM_ok_iff`.
-/
namespace Catkit2

universe u

variable {ε : Type*} {α β : Type u}

theorem bind_ok_iff {x : Except ε α} {f : α → Except ε β} {b : β} :
    (x >>= f) = .ok b ↔ ∃ a, x = .ok a ∧ f a = .ok b := by
  constructor
  · intro h
    cases x with
    | error e => cases h
    | ok a => exact ⟨a, rfl, h⟩
  · intro h
    obtain ⟨a, rfl, h⟩ := h
    exact h

/-- A relation between the start and the end of a fold that returns, by
induction over the list. -/
theorem foldlM_ok {f : β → α → Except ε β} {R : List α → β → β → Prop} (nil : ∀ b, R [] b b)
    (cons : ∀ a l b b₁ b', f b a = .ok b₁ → R l b₁ b' → R (a :: l) b b') :
    ∀ (l : List α) {b b' : β}, l.foldlM f b = .ok b' → R l b b'
  | [], b, b', h => by
    cases h
    exact nil b
  | a :: l, b, b', h => by
    rw [List.foldlM_cons] at h
    obtain ⟨b₁, h1, h2⟩ := bind_ok_iff.mp h
    exact cons a l b b₁ b' h1 (foldlM_ok nil cons l h2)

/-- A fold whose steps fail exactly at the elements without `P`. -/
theorem foldlM_ok_or_error {f : β → α → Except ε β} {P : α → Prop} {e : ε} :
    ∀ {l : List α}, (∀ a ∈ l, P a → ∀ b, ∃ b', f b a = .ok b') →
      (∀ a ∈ l, ¬ P a → ∀ b, f b a = .error e) → ∀ b : β,
      (∀ a ∈ l, P a) ∧ (∃ b', l.foldlM f b = .ok b') ∨
        (∃ a ∈ l, ¬ P a) ∧ l.foldlM f b = .error e
  | [], _, _, b => .inl ⟨fun _ h => absurd h List.not_mem_nil, b, rfl⟩
  | a :: l, hok, herr, b => by
    rw [List.foldlM_cons]
    by_cases ha : P a
    · obtain ⟨b₁, hb⟩ := hok a List.mem_cons_self ha b
      rw [hb]
      have hrest := foldlM_ok_or_error (fun x hx => hok x (List.mem_cons_of_mem _ hx))
        (fun x hx => herr x (List.mem_cons_of_mem _ hx)) b₁
      rcases hrest with ⟨hall, h⟩ | ⟨⟨x, hx, hn⟩, h⟩
      · exact .inl ⟨List.forall_mem_cons.mpr ⟨ha, hall⟩, h⟩
      · exact .inr ⟨⟨x, List.mem_cons_of_mem _ hx, hn⟩, h⟩
    · rw [herr a List.mem_cons_self ha b]
      exact .inr ⟨⟨a, List.mem_cons_self, ha⟩, rfl⟩

/-- A computation for each element of a list. -/
theorem mapM_ok_iff {f : α → Except ε β} {l : List α} {bs : List β} :
    l.mapM f = .ok bs ↔ List.Forall₂ (fun a b => f a = .ok b) l bs := by
  induction l generalizing bs with
  | nil => simp [pure, Except.pure, eq_comm]
  | cons a l ih =>
    rw [List.mapM_cons, bind_ok_iff]
    constructor
    · intro ⟨b, hb, h⟩
      obtain ⟨bs', hbs, h⟩ := bind_ok_iff.mp h
      cases h
      exact .cons hb (ih.mp hbs)
    · intro h
      cases h with
      | @cons _ b _ bs hb hbs => exact ⟨b, hb, bind_ok_iff.mpr ⟨bs, ih.mpr hbs, rfl⟩⟩

/-- A list is read back exactly when each of its elements is. -/
theorem mapM_roundTrip {f : α → Except ε β} {g : β → Except ε α} {l : List α} :
    (∃ bs, l.mapM f = .ok bs ∧ bs.mapM g = .ok l) ↔ ∀ a ∈ l, ∃ b, f a = .ok b ∧ g b = .ok a := by
  simp only [mapM_ok_iff]
  induction l with
  | nil => simp
  | cons a l ih =>
    rw [List.forall_mem_cons, ← ih]
    constructor
    · intro ⟨bs, h1, h2⟩
      cases h1 with
      | cons hb hbs =>
        cases h2 with
        | cons ha hl => exact ⟨⟨_, hb, ha⟩, _, hbs, hl⟩
    · intro ⟨⟨b, hb, ha⟩, bs, hbs, hl⟩
      exact ⟨b :: bs, .cons hb hbs, .cons ha hl⟩

end Catkit2
