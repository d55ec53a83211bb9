import Mathlib.Tactic.TypeStar

/-!
# Programs whose surroundings answer from a script

A program with a state of its own reads from the outside one moment at a time:
the script says what is there at each moment, and a read moves on to the next.
It ends with a value, with an exception, or crashes.

Two rules of reasoning, for a fixed script: `Keeps I x`, an invariant that
every way to end leaves in place, and `Safe P x Q`, no crash from `P`, and `Q`
where there is a value. The invariant may speak of the moments to come.
-/
namespace Catkit2

variable {M σ ε α β : Type}

inductive Outcome (ε α : Type) where
  | value (a : α)
  | throw (e : ε)
  | crash

/-- From the script, the state and the moment. -/
def Script (M σ ε α : Type) : Type := (Nat → M) → σ → Nat → Outcome ε α × σ × Nat

namespace Script

protected def pure (a : α) : Script M σ ε α := fun _ s n => (.value a, s, n)

protected def bind (x : Script M σ ε α) (f : α → Script M σ ε β) : Script M σ ε β := fun env s n =>
  match x env s n with
  | (.value a, s, n) => f a env s n
  | (.throw e, s, n) => (.throw e, s, n)
  | (.crash, s, n) => (.crash, s, n)

instance : Monad (Script M σ ε) where
  pure := Script.pure
  bind := Script.bind

def throw (e : ε) : Script M σ ε α := fun _ s n => (.throw e, s, n)

def crash : Script M σ ε α := fun _ s n => (.crash, s, n)

def get : Script M σ ε σ := fun _ s n => (.value s, s, n)

def modify (f : σ → σ) : Script M σ ε Unit := fun _ s n => (.value (), f s, n)

/-- What there is at this moment. -/
def read (f : M → α) : Script M σ ε α := fun env s n => (.value (f (env n)), s, n + 1)

/-- One look at this moment, which may change the state. -/
def act (f : M → σ → Except ε α × σ) : Script M σ ε α := fun env s n =>
  match f (env n) s with
  | (.ok a, s) => (.value a, s, n + 1)
  | (.error e, s) => (.throw e, s, n + 1)

def ofExcept : Except ε α → Script M σ ε α
  | .ok a => pure a
  | .error e => throw e

/-- An answer, or an exception. -/
def ask (f : M → Except ε α) : Script M σ ε α := read f >>= ofExcept

@[simp] theorem pure_apply (a : α) (env : Nat → M) (s : σ) (n : Nat) :
    (pure a : Script M σ ε α) env s n = (.value a, s, n) := rfl

theorem bind_apply (x : Script M σ ε α) (f : α → Script M σ ε β) (env : Nat → M) (s : σ) (n : Nat) :
    (x >>= f) env s n = match x env s n with
      | (.value a, s, n) => f a env s n
      | (.throw e, s, n) => (.throw e, s, n)
      | (.crash, s, n) => (.crash, s, n) := rfl

/-! ## Invariants -/

variable {env : Nat → M} {I : σ → Nat → Prop}

/-- However the program ends, the invariant is in place. -/
def Keeps (env : Nat → M) (I : σ → Nat → Prop) (x : Script M σ ε α) : Prop :=
  ∀ s n, I s n → I (x env s n).2.1 (x env s n).2.2

theorem Keeps.pure (a : α) : Keeps env I (pure a : Script M σ ε α) := fun _ _ h => h

theorem Keeps.throw (e : ε) : Keeps env I (throw e : Script M σ ε α) := fun _ _ h => h

theorem Keeps.crash : Keeps env I (crash : Script M σ ε α) := fun _ _ h => h

theorem Keeps.get : Keeps env I (get : Script M σ ε σ) := fun _ _ h => h

theorem Keeps.modify {f : σ → σ} (h : ∀ s n, I s n → I (f s) n) :
    Keeps env I (modify f : Script M σ ε Unit) := fun s n hs => h s n hs

theorem Keeps.read (hnext : ∀ s n, I s n → I s (n + 1)) (f : M → α) :
    Keeps env I (read f : Script M σ ε α) := fun s n h => hnext s n h

theorem Keeps.act {f : M → σ → Except ε α × σ} (h : ∀ s n, I s n → I (f (env n) s).2 (n + 1)) :
    Keeps env I (act f) := by
  intro s n hs
  have h' := h s n hs
  unfold Script.act
  split <;> rename_i heq <;> rw [heq] at h' <;> exact h'

theorem Keeps.bind {x : Script M σ ε α} {f : α → Script M σ ε β} (hx : Keeps env I x)
    (hf : ∀ a, Keeps env I (f a)) : Keeps env I (x >>= f) := by
  intro s n h
  have h' := hx s n h
  rw [bind_apply]
  split
  · rename_i a s' n' heq
    rw [heq] at h'
    exact hf a s' n' h'
  · rename_i e s' n' heq
    rw [heq] at h'
    exact h'
  · rename_i s' n' heq
    rw [heq] at h'
    exact h'

theorem Keeps.ask (hnext : ∀ s n, I s n → I s (n + 1)) (f : M → Except ε α) :
    Keeps env I (ask f : Script M σ ε α) :=
  (Keeps.read hnext f).bind fun r => by
    cases r with
    | ok a => exact .pure a
    | error e => exact .throw e

/-! ## No crash -/

/-- From `P` no crash, and `Q` of a value. -/
def Safe (env : Nat → M) (P : σ → Nat → Prop) (x : Script M σ ε α) (Q : α → σ → Nat → Prop) : Prop :=
  ∀ s n, P s n → (x env s n).1 ≠ .crash ∧
    ∀ a, (x env s n).1 = .value a → Q a (x env s n).2.1 (x env s n).2.2

variable {P : σ → Nat → Prop} {Q : α → σ → Nat → Prop}

theorem Safe.pure {a : α} (h : ∀ s n, P s n → Q a s n) : Safe env P (pure a : Script M σ ε α) Q := by
  refine fun s n hs => ⟨fun h => (by cases h), ?_⟩
  rintro _ ⟨⟩
  exact h s n hs

theorem Safe.throw (e : ε) : Safe env P (throw e : Script M σ ε α) Q :=
  fun _ _ _ => ⟨fun h => (by cases h), fun _ h => by cases h⟩

theorem Safe.get {Q : σ → σ → Nat → Prop} (h : ∀ s n, P s n → Q s s n) :
    Safe env P (get : Script M σ ε σ) Q := by
  refine fun s n hs => ⟨fun h => (by cases h), ?_⟩
  rintro _ ⟨⟩
  exact h s n hs

theorem Safe.modify {f : σ → σ} {Q : Unit → σ → Nat → Prop} (h : ∀ s n, P s n → Q () (f s) n) :
    Safe env P (modify f : Script M σ ε Unit) Q := by
  refine fun s n hs => ⟨fun h => (by cases h), ?_⟩
  rintro _ ⟨⟩
  exact h s n hs

theorem Safe.read {f : M → α} (h : ∀ s n, P s n → Q (f (env n)) s (n + 1)) :
    Safe env P (read f : Script M σ ε α) Q := by
  refine fun s n hs => ⟨fun h => (by cases h), ?_⟩
  rintro _ ⟨⟩
  exact h s n hs

theorem Safe.act {f : M → σ → Except ε α × σ}
    (h : ∀ s n a, P s n → (f (env n) s).1 = .ok a → Q a (f (env n) s).2 (n + 1)) :
    Safe env P (act f) Q := by
  intro s n hs
  have h' := h s n
  unfold Script.act
  split
  · rename_i a s' heq
    rw [heq] at h'
    refine ⟨fun h => (by cases h), ?_⟩
    rintro _ ⟨⟩
    exact h' a hs rfl
  · exact ⟨fun h => (by cases h), fun _ h => by cases h⟩

theorem Safe.bind {x : Script M σ ε α} {f : α → Script M σ ε β} {Q : β → σ → Nat → Prop}
    {R : α → σ → Nat → Prop} (hx : Safe env P x R) (hf : ∀ a, Safe env (R a) (f a) Q) :
    Safe env P (x >>= f) Q := by
  intro s n h
  obtain ⟨hc, hv⟩ := hx s n h
  rw [bind_apply]
  split
  · rename_i a s' n' heq
    rw [heq] at hv
    exact hf a s' n' (hv a rfl)
  · exact ⟨fun h => (by cases h), fun _ h => by cases h⟩
  · rename_i s' n' heq
    rw [heq] at hc
    exact absurd rfl hc

theorem Safe.mono {P' : σ → Nat → Prop} {Q' : α → σ → Nat → Prop} {x : Script M σ ε α}
    (h : Safe env P x Q) (hP : ∀ s n, P' s n → P s n) (hQ : ∀ a s n, Q a s n → Q' a s n) :
    Safe env P' x Q' := by
  intro s n hs
  obtain ⟨hc, hv⟩ := h s n (hP s n hs)
  exact ⟨hc, fun a ha => hQ _ _ _ (hv a ha)⟩

theorem Safe.ask {f : M → Except ε α} (h : ∀ s n a, P s n → f (env n) = .ok a → Q a s (n + 1)) :
    Safe env P (ask f : Script M σ ε α) Q := by
  refine Safe.bind (R := fun r s n => ∀ a, r = .ok a → Q a s n) (Safe.read fun s n hs a ha => ?_) fun r => ?_
  · exact h s n a hs ha
  · cases r with
    | ok a => exact Safe.pure fun s n hs => hs a rfl
    | error e => exact Safe.throw e

end Script

end Catkit2
