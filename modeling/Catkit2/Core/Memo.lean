import Mathlib.Logic.Function.Basic
import Mathlib.Logic.Relation

/-!
# Remembering what was computed from a dependency graph

`Rules` says for each key from which other keys its value is computed, and
how; `eval` computes a value from scratch, `memo` looks every value up before
it computes it, and stores what it computed. `fixed` are keys whose value was
given. Both count the nesting of their calls and fail at depth 0.

`level` numbers the keys so that the inputs of a key come before it: at a
depth above the level of the key neither runs out (`eval_stable`).

* `memo_spec`: from a cache that holds computed values only (`Coherent`),
  `memo` returns what `eval` does, and leaves such a cache, also when it fails.
* `Coherent.cut`: so does forgetting what was computed from a changed key.
-/
namespace Catkit2

universe u

variable {κ : Type*} {R E : Type u}

/-- `rule q` are the inputs of `q` and how its value is computed from theirs. -/
structure Rules (κ : Type*) (R E : Type u) where
  rule : κ → Except E (List κ × (List R → Except E R))
  overflow : E

namespace Rules

variable (rules : Rules κ R E)

/-- The values of the inputs, one after the other, left at the first failure. -/
def evalAll (f : κ → Except E R) : List κ → Except E (List R)
  | [] => .ok []
  | p :: ps =>
    match f p with
    | .error e => .error e
    | .ok v =>
      match evalAll f ps with
      | .error e => .error e
      | .ok vs => .ok (v :: vs)

def eval (fixed : κ → Option R) : Nat → κ → Except E R
  | 0, _ => .error rules.overflow
  | n + 1, q =>
    match fixed q with
    | some v => .ok v
    | none =>
      match rules.rule q with
      | .error e => .error e
      | .ok (inputs, f) =>
        match evalAll (eval fixed n) inputs with
        | .error e => .error e
        | .ok vs => f vs

/-- The same, with a cache handed on. -/
def memoAll (f : (κ → Option R) → κ → Except E R × (κ → Option R)) :
    (κ → Option R) → List κ → Except E (List R) × (κ → Option R)
  | cache, [] => (.ok [], cache)
  | cache, p :: ps =>
    match f cache p with
    | (.error e, cache) => (.error e, cache)
    | (.ok v, cache) =>
      match memoAll f cache ps with
      | (.error e, cache) => (.error e, cache)
      | (.ok vs, cache) => (.ok (v :: vs), cache)

def memo [DecidableEq κ] : Nat → (κ → Option R) → κ → Except E R × (κ → Option R)
  | 0, cache, _ => (.error rules.overflow, cache)
  | n + 1, cache, q =>
    match cache q with
    | some v => (.ok v, cache)
    | none =>
      match rules.rule q with
      | .error e => (.error e, cache)
      | .ok (inputs, f) =>
        match memoAll (memo n) cache inputs with
        | (.error e, cache) => (.error e, cache)
        | (.ok vs, cache) =>
          match f vs with
          | .error e => (.error e, cache)
          | .ok v => (.ok v, Function.update cache q (some v))

/-- `edge p q` holds at least where `p` is an input of `q`. -/
def InputsFrom (edge : κ → κ → Prop) : Prop :=
  ∀ q inputs f, rules.rule q = .ok (inputs, f) → ∀ p ∈ inputs, edge p q

/-- Inputs come before the key that is computed from them. -/
def Leveled (edge : κ → κ → Prop) (level : κ → Nat) : Prop := ∀ p q, edge p q → level p < level q

variable {rules} {fixed fixed' : κ → Option R} {edge : κ → κ → Prop} {level : κ → Nat}

/-! ## Evaluation -/

theorem evalAll_congr {f g : κ → Except E R} : ∀ {ps : List κ}, (∀ p ∈ ps, f p = g p) →
    evalAll f ps = evalAll g ps
  | [], _ => rfl
  | p :: ps, h => by
    have htail := evalAll_congr fun q hq => h q (List.mem_cons_of_mem _ hq)
    simp only [evalAll, h p List.mem_cons_self, htail]

/-- Above the level of the key the depth does not matter. -/
theorem eval_stable (hin : rules.InputsFrom edge) (hl : Leveled edge level) (fixed : κ → Option R) :
    ∀ (n m : Nat) (q : κ), level q < n → level q < m → rules.eval fixed n q = rules.eval fixed m q
  | 0, _, _, hn, _ => absurd hn (Nat.not_lt_zero _)
  | _, 0, _, _, hm => absurd hm (Nat.not_lt_zero _)
  | n + 1, m + 1, q, hn, hm => by
    simp only [eval]
    split
    · rfl
    · split
      · rfl
      · rename_i inputs f hrule
        have hsame : evalAll (rules.eval fixed n) inputs = evalAll (rules.eval fixed m) inputs := by
          refine evalAll_congr fun p hp => ?_
          have hlt := hl p q (hin q inputs f hrule p hp)
          exact eval_stable hin hl fixed n m p (by omega) (by omega)
        rw [hsame]

/-- A value depends only on the rules and the fixed values of the key itself and
of what leads to it. -/
theorem eval_congr {rules' : Rules κ R E} (hov : rules.overflow = rules'.overflow)
    (hin : rules.InputsFrom edge) : ∀ (n : Nat) (q : κ),
    (∀ a, Relation.ReflTransGen edge a q → rules.rule a = rules'.rule a ∧ fixed a = fixed' a) →
      rules.eval fixed n q = rules'.eval fixed' n q
  | 0, _, _ => by simp only [eval, hov]
  | n + 1, q, h => by
    obtain ⟨hrule, hfixed⟩ := h q .refl
    simp only [eval, ← hrule, ← hfixed]
    split
    · rfl
    · split
      · rfl
      · rename_i inputs f hq
        have hsame : evalAll (rules.eval fixed n) inputs = evalAll (rules'.eval fixed' n) inputs := by
          refine evalAll_congr fun p hp => eval_congr hov hin n p fun a ha => ?_
          exact h a (ha.tail (hin q inputs f hq p hp))
        rw [hsame]

/-! ## Caches -/

/-- What is fixed is cached, and what is cached is the value of its key. -/
structure Coherent (rules : Rules κ R E) (level : κ → Nat) (fixed cache : κ → Option R) : Prop where
  given : ∀ q v, fixed q = some v → cache q = some v
  value : ∀ q v, cache q = some v → rules.eval fixed (level q + 1) q = .ok v

/-- An empty cache, and nothing given. -/
theorem Coherent.empty : Coherent rules level (fun _ => none) fun _ => none := by
  refine ⟨fun q v h => ?_, fun q v h => ?_⟩ <;> cases h

/-- One call with a cache: what it returns is the value, whatever it returns,
and the cache it leaves is coherent. -/
def Agrees (rules : Rules κ R E) (level : κ → Nat) (fixed : κ → Option R)
    (f : (κ → Option R) → κ → Except E R × (κ → Option R)) (q : κ) : Prop :=
  ∀ cache, Coherent rules level fixed cache →
    (f cache q).1 = rules.eval fixed (level q + 1) q ∧ Coherent rules level fixed (f cache q).2

theorem memoAll_spec {f : (κ → Option R) → κ → Except E R × (κ → Option R)} : ∀ {ps : List κ},
    (∀ p ∈ ps, Agrees rules level fixed f p) → ∀ cache, Coherent rules level fixed cache →
      (memoAll f cache ps).1 = evalAll (fun p => rules.eval fixed (level p + 1) p) ps ∧
        Coherent rules level fixed (memoAll f cache ps).2
  | [], _, _, hc => ⟨rfl, hc⟩
  | p :: ps, h, cache, hc => by
    obtain ⟨h1, h2⟩ := h p List.mem_cons_self cache hc
    simp only [memoAll, evalAll]
    split
    · rename_i e cache' heq
      rw [heq] at h1 h2
      rw [← h1]
      exact ⟨rfl, h2⟩
    · rename_i v cache' heq
      rw [heq] at h1 h2
      obtain ⟨h3, h4⟩ := memoAll_spec (fun q hq => h q (List.mem_cons_of_mem _ hq)) cache' h2
      rw [← h1, ← h3]
      split
      · rename_i e cache'' heq'
        rw [heq'] at h4 ⊢
        exact ⟨rfl, h4⟩
      · rename_i vs cache'' heq'
        rw [heq'] at h4 ⊢
        exact ⟨rfl, h4⟩

theorem eval_of_fixed {q : κ} {v : R} (h : fixed q = some v) (n : Nat) :
    rules.eval fixed (n + 1) q = .ok v := by
  simp only [eval, h]

/-! ## Forgetting -/

theorem closed_of_reaches {changed : κ → Prop} (hdown : ∀ p q, changed p → edge p q → changed q)
    {a b : κ} (hab : Relation.ReflTransGen edge a b) (ha : changed a) : changed b := by
  induction hab with
  | refl => exact ha
  | tail _ hstep ih => exact hdown _ _ ih hstep

/-- Change the rules and the given values of some keys, and forget what is
cached at these keys and at all that was computed from them. -/
theorem Coherent.cut {rules' : Rules κ R E} {cache cache' : κ → Option R}
    (h : Coherent rules level fixed cache) (changed : κ → Prop) (hov : rules.overflow = rules'.overflow)
    (hin : rules.InputsFrom edge) (hdown : ∀ p q, changed p → edge p q → changed q)
    (hrule : ∀ q, ¬ changed q → rules.rule q = rules'.rule q)
    (hfixed : ∀ q, ¬ changed q → fixed' q = fixed q)
    (hkeep : ∀ q, ¬ changed q → cache' q = cache q)
    (hcut : ∀ q, changed q → cache' q = fixed' q) : Coherent rules' level fixed' cache' := by
  refine ⟨fun q v hq => ?_, fun q v hq => ?_⟩
  · by_cases hd : changed q
    · rw [hcut q hd]; exact hq
    · rw [hkeep q hd]; rw [hfixed q hd] at hq; exact h.given q v hq
  · by_cases hd : changed q
    · rw [hcut q hd] at hq
      exact eval_of_fixed hq _
    · -- nothing that leads to `q` changed
      have hclean : ∀ a, Relation.ReflTransGen edge a q → ¬ changed a :=
        fun a ha hda => hd (closed_of_reaches hdown ha hda)
      rw [hkeep q hd] at hq
      rw [← h.value q v hq]
      refine (eval_congr hov hin _ q fun a ha => ?_).symm
      exact ⟨hrule a (hclean a ha), (hfixed a (hclean a ha)).symm⟩

/-! ## Remembering -/

variable [DecidableEq κ]

/-- Storing the value of a key. -/
theorem Coherent.store {cache : κ → Option R} (h : Coherent rules level fixed cache) {q : κ} {v : R}
    (hv : rules.eval fixed (level q + 1) q = .ok v) :
    Coherent rules level fixed (Function.update cache q (some v)) := by
  refine ⟨fun p w hp => ?_, fun p w hp => ?_⟩
  · by_cases hpq : p = q
    · subst hpq
      rw [eval_of_fixed hp] at hv
      cases hv
      exact Function.update_self _ _ _
    · rw [Function.update_of_ne hpq]
      exact h.given p w hp
  · by_cases hpq : p = q
    · subst hpq
      rw [Function.update_self] at hp
      cases hp
      exact hv
    · rw [Function.update_of_ne hpq] at hp
      exact h.value p w hp

/-- **Remembering is invisible.** At a depth above the level of the key. -/
theorem memo_spec (hin : rules.InputsFrom edge) (hl : Leveled edge level) :
    ∀ (n : Nat) (q : κ), level q < n → Agrees rules level fixed (rules.memo n) q
  | 0, _, hn => absurd hn (Nat.not_lt_zero _)
  | n + 1, q, hn => by
    intro cache hc
    simp only [memo]
    split
    · rename_i v hv
      exact ⟨(hc.value q v hv).symm, hc⟩
    · rename_i hnone
      have hfree : fixed q = none := by
        cases hf : fixed q with
        | none => rfl
        | some v => rw [hc.given q v hf] at hnone; cases hnone
      split
      · rename_i e hrule
        refine ⟨?_, hc⟩
        simp only [eval, hfree, hrule]
      · rename_i inputs f hrule
        have hbelow : ∀ p ∈ inputs, level p < level q :=
          fun p hp => hl p q (hin q inputs f hrule p hp)
        obtain ⟨h1, h2⟩ := memoAll_spec
          (fun p hp => memo_spec hin hl n p (by have := hbelow p hp; omega)) cache hc
        have hsame : evalAll (rules.eval fixed (level q)) inputs =
            (memoAll (rules.memo n) cache inputs).1 := by
          rw [h1]
          exact evalAll_congr fun p hp =>
            eval_stable hin hl fixed _ _ p (hbelow p hp) (Nat.lt_succ_self _)
        have hval : rules.eval fixed (level q + 1) q =
            match (memoAll (rules.memo n) cache inputs).1 with
            | .error e => .error e
            | .ok vs => f vs := by
          simp only [eval, hfree, hrule, hsame]
        split
        · rename_i e cache' heq
          rw [heq] at h2 hval
          exact ⟨hval.symm, h2⟩
        · rename_i vs cache' heq
          rw [heq] at h2 hval
          simp only at hval
          split
          · rename_i e he
            exact ⟨by rw [hval, he], h2⟩
          · rename_i v hv
            exact ⟨by rw [hval, hv], h2.store (hval.trans hv)⟩

end Rules

end Catkit2
