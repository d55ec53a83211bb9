import Mathlib.Tactic.TypeStar

/-!
# Labelled transition systems

The one notion of a system every concurrent part of the development uses: an
initial-state predicate and a labelled step relation. `Run` is a finite
sequence of steps, `Reachable` a state at the end of a run from an initial
state, `Inductive` the induction principle for invariants.

`restrict` keeps the runs whose every step meets a guard. It is how a result
"in every run whose steps all meet the condition" is stated: the guard looks
at the label and at the state before the step.

`Justified` is an ordering property of a log of events: whatever an event
needs was logged before it.
-/
namespace Catkit2

universe u v

/-- A labelled transition system. -/
structure LTS (S : Type u) (L : Type v) where
  init : S → Prop
  step : S → L → S → Prop

namespace LTS

variable {S : Type u} {L : Type v} {T : LTS S L}

/-- The system of a partial step function. -/
def ofFn (init : S → Prop) (step : S → L → Option S) : LTS S L where
  init := init
  step s l s' := step s l = some s'

inductive Run (T : LTS S L) : S → List L → S → Prop
  | nil (s : S) : Run T s [] s
  | cons {s s' s'' : S} {l : L} {ls : List L} :
      T.step s l s' → Run T s' ls s'' → Run T s (l :: ls) s''

def Reachable (T : LTS S L) (s : S) : Prop := ∃ s₀ ls, T.init s₀ ∧ T.Run s₀ ls s

/-- An inductive invariant: it holds initially and every step keeps it. -/
structure Inductive (T : LTS S L) (I : S → Prop) : Prop where
  init : ∀ s, T.init s → I s
  step : ∀ s l s', I s → T.step s l s' → I s'

/-! ## Runs -/

theorem Run.append {a b c : S} {l₁ l₂ : List L} (h₁ : T.Run a l₁ b) (h₂ : T.Run b l₂ c) :
    T.Run a (l₁ ++ l₂) c := by
  induction h₁ with
  | nil => exact h₂
  | cons hs _ ih => exact .cons hs (ih h₂)

theorem Run.snoc {a b c : S} {ls : List L} {l : L} (h : T.Run a ls b) (hs : T.step b l c) :
    T.Run a (ls ++ [l]) c :=
  h.append (.cons hs (.nil c))

/-- What every step keeps, a run keeps. -/
theorem Run.preserves {I : S → Prop} (hI : ∀ s l s', I s → T.step s l s' → I s') {a b : S}
    {ls : List L} (h : T.Run a ls b) (ha : I a) : I b := by
  induction h with
  | nil => exact ha
  | cons hs _ ih => exact ih (hI _ _ _ ha hs)

theorem Reachable.of_init {s : S} (h : T.init s) : T.Reachable s := ⟨s, [], h, .nil s⟩

theorem Reachable.step {s s' : S} {l : L} (h : T.Reachable s) (hs : T.step s l s') :
    T.Reachable s' := by
  obtain ⟨s₀, ls, hi, hr⟩ := h
  exact ⟨s₀, ls ++ [l], hi, hr.snoc hs⟩

theorem Inductive.reachable {I : S → Prop} (hI : T.Inductive I) (s : S) (h : T.Reachable s) :
    I s := by
  obtain ⟨s₀, ls, hi, hr⟩ := h
  exact hr.preserves hI.step (hI.init _ hi)

/-! ## Executing a step function -/

/-- Take the steps one after the other, `none` if one is not enabled. -/
def exec (step : S → L → Option S) : S → List L → Option S
  | s, [] => some s
  | s, l :: ls => (step s l).bind fun s' => exec step s' ls

theorem run_of_exec (init : S → Prop) (step : S → L → Option S) :
    ∀ (s : S) (ls : List L) (s' : S), exec step s ls = some s' → (ofFn init step).Run s ls s'
  | s, [], s', h => by
    simp only [exec, Option.some.injEq] at h; subst h; exact .nil s
  | s, l :: ls, s', h => by
    simp only [exec, Option.bind_eq_some_iff] at h
    obtain ⟨s₁, h₁, h₂⟩ := h
    exact .cons h₁ (run_of_exec init step s₁ ls s' h₂)

theorem Reachable.of_exec {init : S → Prop} {step : S → L → Option S} {s₀ s : S} {ls : List L}
    (hi : init s₀) (h : exec step s₀ ls = some s) : (ofFn init step).Reachable s :=
  ⟨s₀, ls, hi, run_of_exec init step s₀ ls s h⟩

/-! ## Guarded runs -/

/-- The same system, its steps restricted to those that meet `G`. -/
def restrict (T : LTS S L) (G : S → L → Prop) : LTS S L where
  init := T.init
  step s l s' := G s l ∧ T.step s l s'

/-- A step function, taken only where the guard is met. -/
def guarded (G : S → L → Prop) [∀ s l, Decidable (G s l)] (step : S → L → Option S) (s : S) (l : L) :
    Option S :=
  if G s l then step s l else none

theorem run_restrict_of_exec (init : S → Prop) (step : S → L → Option S) (G : S → L → Prop)
    [∀ s l, Decidable (G s l)] {s s' : S} {ls : List L} (h : exec (guarded G step) s ls = some s') :
    ((ofFn init step).restrict G).Run s ls s' := by
  induction ls generalizing s with
  | nil => simp only [exec, Option.some.injEq] at h; subst h; exact .nil s
  | cons l ls ih =>
    simp only [exec, Option.bind_eq_some_iff] at h
    obtain ⟨s₁, h₁, h₂⟩ := h
    unfold guarded at h₁
    split at h₁
    · rename_i hG; exact .cons ⟨hG, h₁⟩ (ih h₂)
    · cases h₁

theorem Reachable.of_guarded {init : S → Prop} {step : S → L → Option S} {G : S → L → Prop}
    [∀ s l, Decidable (G s l)] {s₀ s : S} {ls : List L} (hi : init s₀)
    (h : exec (guarded G step) s₀ ls = some s) : ((ofFn init step).restrict G).Reachable s :=
  ⟨s₀, ls, hi, run_restrict_of_exec init step G h⟩

/-- Steps that the guard lets pass in every state. -/
theorem Reachable.of_free {init : S → Prop} {step : S → L → Option S} {G : S → L → Prop} {s₀ s : S}
    {ls : List L} (hi : init s₀) (hfree : ∀ l ∈ ls, ∀ s, G s l) (h : exec step s₀ ls = some s) :
    ((ofFn init step).restrict G).Reachable s := by
  refine ⟨s₀, ls, hi, ?_⟩
  clear hi
  induction ls generalizing s₀ with
  | nil => simp only [exec, Option.some.injEq] at h; subst h; exact .nil s₀
  | cons l ls ih =>
    simp only [exec, Option.bind_eq_some_iff] at h
    obtain ⟨s₁, h₁, h₂⟩ := h
    exact .cons ⟨hfree l List.mem_cons_self s₀, h₁⟩ (ih (fun l hl => hfree l (List.mem_cons_of_mem _ hl)) h₂)

end LTS

/-! ## Event logs -/

/-- Every event of the log comes after the events it needs. -/
def Justified {E : Type u} (needs : E → E → Prop) (log : List E) : Prop :=
  ∀ l₁ e l₂, log = l₁ ++ e :: l₂ → ∀ r, needs e r → r ∈ l₁

namespace Justified

variable {E : Type u} {needs : E → E → Prop}

theorem nil : Justified needs [] := by
  intro l₁ e l₂ h
  cases l₁ <;> cases h

theorem snoc {log : List E} {e : E} (h : Justified needs log) (he : ∀ r, needs e r → r ∈ log) :
    Justified needs (log ++ [e]) := by
  intro l₁ e' l₂ heq r hr
  rcases List.eq_nil_or_concat l₂ with rfl | ⟨l, x, rfl⟩
  · obtain ⟨rfl, hx⟩ := List.append_inj' heq rfl
    cases hx
    exact he r hr
  · rw [List.concat_eq_append, ← List.cons_append, ← List.append_assoc] at heq
    obtain ⟨hlog, -⟩ := List.append_inj' heq rfl
    exact h l₁ e' l hlog r hr

end Justified

end Catkit2
