import Catkit2.Core.Script

/-!
# Exceptions and clean-up

`try` with a handler and `try` with a `finally` block, for programs that read
from a script. What is left behind is told apart by how the program ended:
`Leads P x Q E` says that from `P` the program ends with a value and `Q`, or with
an exception and `E`, and does not crash.

* `Leads.tryFinally`: the clean-up code has to do its work from both ends.
* `Leads.mono`: the rule of consequence.
-/
namespace Catkit2

variable {M σ ε α β : Type}

namespace Script

/-! ## The two statements -/

/-- `try: x except: h` -/
def tryExcept (x : Script M σ ε α) (h : ε → Script M σ ε α) : Script M σ ε α := fun env s n =>
  match x env s n with
  | (.throw e, s, n) => h e env s n
  | r => r

/-- `try: x finally: f`; an exception of `f` takes the place of what `x` ended with. -/
def tryFinally (x : Script M σ ε α) (f : Script M σ ε Unit) : Script M σ ε α := fun env s n =>
  match x env s n with
  | (.crash, s, n) => (.crash, s, n)
  | (r, s, n) =>
    match f env s n with
    | (.value _, s, n) => (r, s, n)
    | (.throw e, s, n) => (.throw e, s, n)
    | (.crash, s, n) => (.crash, s, n)

/-! ## What a program leads to -/

/-- What holds at the end. -/
def Leaves (Q : α → σ → Nat → Prop) (E : ε → σ → Nat → Prop) : Outcome ε α × σ × Nat → Prop
  | (.value a, s, n) => Q a s n
  | (.throw e, s, n) => E e s n
  | (.crash, _, _) => False

/-- From `P` a value and `Q`, or an exception and `E`. -/
def Leads (env : Nat → M) (P : σ → Nat → Prop) (x : Script M σ ε α) (Q : α → σ → Nat → Prop)
    (E : ε → σ → Nat → Prop) : Prop :=
  ∀ s n, P s n → Leaves Q E (x env s n)

variable {env : Nat → M} {P P' : σ → Nat → Prop} {Q Q' : α → σ → Nat → Prop} {E E' : ε → σ → Nat → Prop}

theorem Leaves.mono {r : Outcome ε α × σ × Nat} (h : Leaves Q E r) (hQ : ∀ a s n, Q a s n → Q' a s n)
    (hE : ∀ e s n, E e s n → E' e s n) : Leaves Q' E' r := by
  obtain ⟨a | e | _, s, n⟩ := r
  · exact hQ a s n h
  · exact hE e s n h
  · exact h

/-- A condition that does not ask how the program ended. -/
theorem Leaves.state {R : σ → Nat → Prop} {r : Outcome ε α × σ × Nat}
    (h : Leaves (fun _ s n => R s n) (fun _ s n => R s n) r) : R r.2.1 r.2.2 := by
  obtain ⟨a | e | _, s, n⟩ := r
  · exact h
  · exact h
  · exact False.elim h

theorem Leads.mono {x : Script M σ ε α} (h : Leads env P x Q E) (hP : ∀ s n, P' s n → P s n)
    (hQ : ∀ a s n, Q a s n → Q' a s n) (hE : ∀ e s n, E e s n → E' e s n) : Leads env P' x Q' E' :=
  fun s n hs => (h s n (hP s n hs)).mono hQ hE

theorem Leads.pure {a : α} (h : ∀ s n, P s n → Q a s n) : Leads env P (pure a : Script M σ ε α) Q E :=
  fun s n hs => h s n hs

theorem Leads.throw {e : ε} (h : ∀ s n, P s n → E e s n) : Leads env P (throw e : Script M σ ε α) Q E :=
  fun s n hs => h s n hs

theorem Leads.get {Q : σ → σ → Nat → Prop} (h : ∀ s n, P s n → Q s s n) :
    Leads env P (get : Script M σ ε σ) Q E :=
  fun s n hs => h s n hs

theorem Leads.modify {f : σ → σ} {Q : Unit → σ → Nat → Prop} (h : ∀ s n, P s n → Q () (f s) n) :
    Leads env P (modify f : Script M σ ε Unit) Q E :=
  fun s n hs => h s n hs

theorem Leads.read {f : M → α} (h : ∀ s n, P s n → Q (f (env n)) s (n + 1)) :
    Leads env P (read f : Script M σ ε α) Q E :=
  fun s n hs => h s n hs

theorem Leads.act {f : M → σ → Except ε α × σ} (hv : ∀ s n a s', P s n → f (env n) s = (.ok a, s') → Q a s' (n + 1))
    (he : ∀ s n e s', P s n → f (env n) s = (.error e, s') → E e s' (n + 1)) : Leads env P (act f) Q E := by
  intro s n hs
  unfold Script.act
  split
  · rename_i a s' heq
    exact hv s n a s' hs heq
  · rename_i e s' heq
    exact he s n e s' hs heq

theorem Leads.bind {x : Script M σ ε α} {f : α → Script M σ ε β} {R : α → σ → Nat → Prop} {Q : β → σ → Nat → Prop}
    (hx : Leads env P x R E) (hf : ∀ a, Leads env (R a) (f a) Q E) : Leads env P (x >>= f) Q E := by
  intro s n hs
  have h := hx s n hs
  rw [bind_apply]
  split <;> rename_i heq <;> rw [heq] at h
  · exact hf _ _ _ h
  · exact h
  · exact h

theorem Leads.get_bind {f : σ → Script M σ ε α} (h : ∀ v, Leads env (fun s n => P s n ∧ v = s) (f v) Q E) :
    Leads env P (Script.get >>= f) Q E :=
  Leads.bind (Leads.get fun _ _ hs => ⟨hs, rfl⟩) h

theorem Leads.modify_bind {f : σ → σ} {x : Script M σ ε α} {R : σ → Nat → Prop} (h : ∀ s n, P s n → R (f s) n)
    (hx : Leads env R x Q E) : Leads env P (Script.modify f >>= fun _ => x) Q E :=
  Leads.bind (Leads.modify h) fun _ => hx

/-- A read that only moves on. -/
theorem Leads.read_bind {f : M → β} {x : β → Script M σ ε α} (h : ∀ s n, P s n → P s (n + 1))
    (hx : ∀ b, Leads env P (x b) Q E) : Leads env P (Script.read f >>= x) Q E :=
  Leads.bind (Leads.read h) hx

/-- An answer, or an exception. -/
theorem Leads.ask {f : M → Except ε α} (hv : ∀ s n a, P s n → f (env n) = .ok a → Q a s (n + 1))
    (he : ∀ s n e, P s n → f (env n) = .error e → E e s (n + 1)) : Leads env P (ask f : Script M σ ε α) Q E := by
  intro s n hs
  rw [Script.ask, bind_apply]
  show Leaves Q E (ofExcept (f (env n)) env s (n + 1))
  cases h : f (env n) with
  | ok a => exact hv s n a hs h
  | error e => exact he s n e hs h

theorem Leads.tryExcept {x : Script M σ ε α} {handler : ε → Script M σ ε α} {R : ε → σ → Nat → Prop}
    (hx : Leads env P x Q R) (hh : ∀ e, Leads env (R e) (handler e) Q E) :
    Leads env P (tryExcept x handler) Q E := by
  intro s n hs
  have h := hx s n hs
  unfold Script.tryExcept
  split
  · rename_i e s' n' heq
    rw [heq] at h
    exact hh e s' n' h
  · rename_i hne
    revert h hne
    obtain ⟨a | e | _, s', n'⟩ := x env s n
    · intro h _
      exact h
    · intro _ hne
      exact absurd rfl (hne e s' n')
    · intro h _
      exact h

/-- The clean-up code runs after a value and after an exception. -/
theorem Leads.tryFinally {x : Script M σ ε α} {f : Script M σ ε Unit} {R : α → σ → Nat → Prop}
    {T : ε → σ → Nat → Prop} (hx : Leads env P x R T) (hv : ∀ a, Leads env (R a) f (fun _ => Q a) E)
    (he : ∀ e, Leads env (T e) f (fun _ => E e) E) : Leads env P (tryFinally x f) Q E := by
  intro s n hs
  have h := hx s n hs
  unfold Script.tryFinally
  revert h
  obtain ⟨a | e | _, s', n'⟩ := x env s n
  · intro h
    have hf := hv a s' n' h
    show Leaves Q E (match f env s' n' with
      | (.value _, s, n) => (.value a, s, n)
      | (.throw e, s, n) => (.throw e, s, n)
      | (.crash, s, n) => (.crash, s, n))
    revert hf
    obtain ⟨_ | _ | _, s'', n''⟩ := f env s' n' <;> exact fun hf => hf
  · intro h
    have hf := he e s' n' h
    show Leaves Q E (match f env s' n' with
      | (.value _, s, n) => (.throw e, s, n)
      | (.throw e, s, n) => (.throw e, s, n)
      | (.crash, s, n) => (.crash, s, n))
    revert hf
    obtain ⟨_ | _ | _, s'', n''⟩ := f env s' n' <;> exact fun hf => hf
  · exact False.elim

theorem Keeps.tryExcept {I : σ → Nat → Prop} {x : Script M σ ε α} {handler : ε → Script M σ ε α} (hx : Keeps env I x)
    (hh : ∀ e, Keeps env I (handler e)) : Keeps env I (tryExcept x handler) := by
  intro s n hs
  have h := hx s n hs
  unfold Script.tryExcept
  split
  · rename_i e s' n' heq
    rw [heq] at h
    exact hh e s' n' h
  · exact h

theorem Keeps.tryFinally {I : σ → Nat → Prop} {x : Script M σ ε α} {f : Script M σ ε Unit} (hx : Keeps env I x)
    (hf : Keeps env I f) : Keeps env I (tryFinally x f) := by
  intro s n hs
  have h := hx s n hs
  unfold Script.tryFinally
  split
  · rename_i s' n' heq
    rw [heq] at h
    exact h
  · rename_i r s' n' _ heq
    rw [heq] at h
    have h' := hf s' n' h
    split <;> rename_i heq' <;> rw [heq'] at h' <;> exact h'

end Script

end Catkit2
