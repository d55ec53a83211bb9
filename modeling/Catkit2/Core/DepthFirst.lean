import Mathlib.Logic.Relation
import Mathlib.Data.List.Basic

/-!
# Depth-first traversal with failures

`dfs enter succ n s v` enters `v` and then its successors, one after the
other. `enter` decides, in the state it is called in, whether the vertex is
skipped, visited (with a new state) or fails; a failure ends the whole
traversal and keeps the state reached. `n` is the call depth that is left.

* `dfs_invariant`: what every entry keeps, the traversal keeps;
  `dfs_ok_invariant`: what every visit keeps, if no failure ends it.
* `dfs_closed`: a traversal that ends without a failure has visited the
  successors of everything it visited.
* `dfs_completes`: enough depth for what is left to visit, and no failing
  vertex, and the traversal ends without a failure.
* `dfs_done`: a traversal of a ranked graph that skips nothing does to
  everything it reaches what a visit does.
-/
namespace Catkit2

universe u v w

variable {S : Type u} {V : Type v} {E : Type w}

inductive Entry (S : Type u) (E : Type w) where
  | skip
  | visit (s : S)
  | fail (s : S) (e : E)

/-- `for v in vs: f(v)`, left at the first failure. -/
def forEach (f : S → V → S × Option E) : S → List V → S × Option E
  | s, [] => (s, none)
  | s, v :: vs =>
    match f s v with
    | (s', none) => forEach f s' vs
    | (s', some e) => (s', some e)

def dfs (enter : S → V → Entry S E) (succ : V → List V) (overflow : E) :
    Nat → S → V → S × Option E
  | 0, s, _ => (s, some overflow)
  | n + 1, s, v =>
    match enter s v with
    | .skip => (s, none)
    | .fail s' e => (s', some e)
    | .visit s' => forEach (dfs enter succ overflow n) s' (succ v)

variable {enter : S → V → Entry S E} {succ : V → List V} {overflow : E}

/-! ## Invariants -/

theorem forEach_invariant {f : S → V → S × Option E} {I : S → Prop} {P : V → Prop}
    (hf : ∀ s v, I s → P v → I (f s v).1) :
    ∀ (vs : List V) (s : S), I s → (∀ v ∈ vs, P v) → I (forEach f s vs).1
  | [], _, hs, _ => hs
  | v :: vs, s, hs, hvs => by
    have hv := hf s v hs (hvs v List.mem_cons_self)
    simp only [forEach]
    split
    · rename_i s' heq
      rw [heq] at hv
      exact forEach_invariant hf vs s' hv fun w hw => hvs w (List.mem_cons_of_mem _ hw)
    · rename_i s' e heq
      rw [heq] at hv
      exact hv

/-- `P` holds of every vertex that is entered: it is passed on to the
successors of a visited one. -/
theorem dfs_invariant {I : S → Prop} {P : V → Prop}
    (hvisit : ∀ s v s', I s → P v → enter s v = .visit s' → I s' ∧ ∀ w ∈ succ v, P w)
    (hfail : ∀ s v s' e, I s → P v → enter s v = .fail s' e → I s') :
    ∀ (n : Nat) (s : S) (v : V), I s → P v → I (dfs enter succ overflow n s v).1
  | 0, _, _, hs, _ => hs
  | n + 1, s, v, hs, hv => by
    simp only [dfs]
    split
    · exact hs
    · rename_i s' e heq
      exact hfail s v s' e hs hv heq
    · rename_i s' heq
      obtain ⟨h1, h2⟩ := hvisit s v s' hs hv heq
      exact forEach_invariant (dfs_invariant hvisit hfail n) _ s' h1 h2

/-- Where no failure ended the loop, only what ends without one has run. -/
theorem forEach_ok_invariant {f : S → V → S × Option E} {I : S → Prop}
    (hf : ∀ s v s', I s → f s v = (s', none) → I s') :
    ∀ (vs : List V) (s s' : S), I s → forEach f s vs = (s', none) → I s'
  | [], s, s', hs, h => by
    cases h
    exact hs
  | v :: vs, s, s', hs, h => by
    simp only [forEach] at h
    split at h
    · rename_i s₁ heq
      exact forEach_ok_invariant hf vs s₁ s' (hf s v s₁ hs heq) h
    · cases h

/-- What every visit keeps, a traversal that ends without a failure keeps. -/
theorem dfs_ok_invariant {I : S → Prop} (hvisit : ∀ s v s', I s → enter s v = .visit s' → I s') :
    ∀ (n : Nat) (s : S) (v : V) (s' : S), I s → dfs enter succ overflow n s v = (s', none) → I s'
  | 0, _, _, _, _, h => by cases h
  | n + 1, s, v, s', hs, h => by
    simp only [dfs] at h
    split at h
    · cases h
      exact hs
    · cases h
    · rename_i s₁ heq
      exact forEach_ok_invariant (fun s v s' hs h => dfs_ok_invariant hvisit n s v s' hs h) _ s₁ s'
        (hvisit s v s₁ hs heq) h

/-! ## Closure -/

/-- What `enter` says about a set of visited vertices. -/
structure Marks (enter : S → V → Entry S E) (Visited : S → V → Prop) : Prop where
  skip : ∀ s v, enter s v = .skip → Visited s v
  self : ∀ s v s', enter s v = .visit s' → Visited s' v
  keep : ∀ s v s' u, enter s v = .visit s' → Visited s u → Visited s' u
  only : ∀ s v s' u, enter s v = .visit s' → Visited s' u → u = v ∨ Visited s u

/-- From `s` to `s'` nothing was lost, and what was added has its successors
visited too. -/
structure Closes (succ : V → List V) (Visited : S → V → Prop) (s s' : S) : Prop where
  keep : ∀ u, Visited s u → Visited s' u
  closed : ∀ u, Visited s' u → Visited s u ∨ ∀ w ∈ succ u, Visited s' w

variable {Visited : S → V → Prop}

theorem Closes.trans {a b c : S} (h : Closes succ Visited a b) (h' : Closes succ Visited b c) :
    Closes succ Visited a c := by
  refine ⟨fun u hu => h'.keep u (h.keep u hu), fun u hu => ?_⟩
  rcases h'.closed u hu with hb | hc
  · exact (h.closed u hb).imp_right fun hs w hw => h'.keep w (hs w hw)
  · exact .inr hc

theorem forEach_closed {f : S → V → S × Option E}
    (hf : ∀ s v s', f s v = (s', none) → Visited s' v ∧ Closes succ Visited s s') :
    ∀ (vs : List V) (s s' : S), forEach f s vs = (s', none) →
      (∀ v ∈ vs, Visited s' v) ∧ Closes succ Visited s s'
  | [], s, s', h => by
    cases h
    refine ⟨?_, fun _ hu => hu, fun _ hu => .inl hu⟩
    intro v hv
    cases hv
  | v :: vs, s, s', h => by
    simp only [forEach] at h
    split at h
    · rename_i s₁ heq
      obtain ⟨h1, h2⟩ := hf s v s₁ heq
      obtain ⟨h3, h4⟩ := forEach_closed hf vs s₁ s' h
      refine ⟨fun w hw => ?_, h2.trans h4⟩
      rcases List.mem_cons.mp hw with rfl | hw
      · exact h4.keep w h1
      · exact h3 w hw
    · cases h

theorem dfs_closed (hm : Marks enter Visited) :
    ∀ (n : Nat) (s : S) (v : V) (s' : S), dfs enter succ overflow n s v = (s', none) →
      Visited s' v ∧ Closes succ Visited s s'
  | 0, _, _, _, h => by cases h
  | n + 1, s, v, s', h => by
    simp only [dfs] at h
    split at h
    · rename_i heq
      cases h
      exact ⟨hm.skip s v heq, fun _ hu => hu, fun _ hu => .inl hu⟩
    · cases h
    · rename_i s₁ heq
      obtain ⟨h1, h2⟩ := forEach_closed (dfs_closed hm n) _ s₁ s' h
      refine ⟨h2.keep v (hm.self s v s₁ heq), fun u hu => h2.keep u (hm.keep s v s₁ u heq hu),
        fun u hu => ?_⟩
      rcases h2.closed u hu with hs | hc
      · rcases hm.only s v s₁ u heq hs with rfl | hs
        · exact .inr h1
        · exact .inl hs
      · exact .inr hc

/-- A path of vertices not visited at the start is visited at the end. -/
theorem Closes.visited_of_path {a b : S} (h : Closes succ Visited a b) {x y : V}
    (hx : Visited b x) (hpath : Relation.ReflTransGen
      (fun u w => ¬ Visited a u ∧ w ∈ succ u) x y) : Visited b y := by
  induction hpath with
  | refl => exact hx
  | tail _ hstep ih =>
    rcases h.closed _ ih with ha | hc
    · exact absurd ha hstep.1
    · exact hc _ hstep.2

/-! ## Completion -/

theorem forEach_completes {f : S → V → S × Option E} {I : S → Prop} {P : V → Prop} {μ : S → Nat}
    {n : Nat} (hf : ∀ s v, I s → P v → μ s < n →
      (f s v).2 = none ∧ I (f s v).1 ∧ μ (f s v).1 ≤ μ s) :
    ∀ (vs : List V) (s : S), I s → (∀ v ∈ vs, P v) → μ s < n →
      (forEach f s vs).2 = none ∧ I (forEach f s vs).1 ∧ μ (forEach f s vs).1 ≤ μ s
  | [], s, hs, _, _ => ⟨rfl, hs, Nat.le_refl _⟩
  | v :: vs, s, hs, hvs, hn => by
    obtain ⟨h1, h2, h3⟩ := hf s v hs (hvs v List.mem_cons_self) hn
    simp only [forEach]
    split
    · rename_i s' heq
      rw [heq] at h2 h3
      obtain ⟨h4, h5, h6⟩ := forEach_completes hf vs s' h2
        (fun w hw => hvs w (List.mem_cons_of_mem _ hw)) (Nat.lt_of_le_of_lt h3 hn)
      exact ⟨h4, h5, Nat.le_trans h6 h3⟩
    · rename_i s' e heq
      rw [heq] at h1
      cases h1

theorem dfs_completes {I : S → Prop} {P : V → Prop} {μ : S → Nat}
    (hvisit : ∀ s v s', I s → P v → enter s v = .visit s' →
      I s' ∧ μ s' < μ s ∧ ∀ w ∈ succ v, P w)
    (hfail : ∀ s v s' e, I s → P v → enter s v ≠ .fail s' e) :
    ∀ (n : Nat) (s : S) (v : V), I s → P v → μ s < n →
      (dfs enter succ overflow n s v).2 = none ∧ I (dfs enter succ overflow n s v).1 ∧
        μ (dfs enter succ overflow n s v).1 ≤ μ s
  | 0, _, _, _, _, hn => absurd hn (Nat.not_lt_zero _)
  | n + 1, s, v, hs, hv, hn => by
    simp only [dfs]
    split
    · exact ⟨rfl, hs, Nat.le_refl _⟩
    · rename_i s' e heq
      exact absurd heq (hfail s v s' e hs hv)
    · rename_i s' heq
      obtain ⟨h1, h2, h3⟩ := hvisit s v s' hs hv heq
      obtain ⟨h4, h5, h6⟩ := forEach_completes (dfs_completes hvisit hfail n) (succ v) s' h1 h3
        (by omega)
      exact ⟨h4, h5, by omega⟩

/-! ## A traversal that skips nothing -/

/-- Every vertex is visited, and a visit does something to it that lasts. -/
structure Does (enter : S → V → Entry S E) (Done : S → V → Prop) : Prop where
  visit : ∀ s v, ∃ s', enter s v = .visit s' ∧ Done s' v
  keep : ∀ s v s' u, enter s v = .visit s' → Done s u → Done s' u

variable {Done : S → V → Prop}

theorem forEach_done (Done : S → V → Prop) {f : S → V → S × Option E} : ∀ (vs : List V),
    (∀ v ∈ vs, ∀ s, (f s v).2 = none ∧ Done (f s v).1 v ∧ ∀ u, Done s u → Done (f s v).1 u) →
      ∀ s, (forEach f s vs).2 = none ∧ (∀ u, Done s u → Done (forEach f s vs).1 u) ∧
        ∀ v ∈ vs, Done (forEach f s vs).1 v
  | [], _, s => ⟨rfl, fun _ hu => hu, fun v hv => absurd hv List.not_mem_nil⟩
  | v :: vs, hf, s => by
    obtain ⟨h1, h2, h3⟩ := hf v List.mem_cons_self s
    simp only [forEach]
    split
    · rename_i s' heq
      rw [heq] at h2 h3
      obtain ⟨h4, h5, h6⟩ := forEach_done Done vs (fun w hw => hf w (List.mem_cons_of_mem _ hw)) s'
      exact ⟨h4, fun u hu => h5 u (h3 u hu), List.forall_mem_cons.mpr ⟨h5 v h2, h6⟩⟩
    · rename_i s' e heq
      rw [heq] at h1
      cases h1

/-- With a depth above the rank of the vertex, nothing fails. -/
theorem dfs_done {rank : V → Nat} (hd : Does enter Done) (hr : ∀ v, ∀ w ∈ succ v, rank w < rank v) :
    ∀ (n : Nat) (v : V), rank v < n → ∀ s, (dfs enter succ overflow n s v).2 = none ∧
      (∀ u, Done s u → Done (dfs enter succ overflow n s v).1 u) ∧
        ∀ u, Relation.ReflTransGen (fun a b => b ∈ succ a) v u →
          Done (dfs enter succ overflow n s v).1 u
  | 0, _, hn, _ => absurd hn (Nat.not_lt_zero _)
  | n + 1, v, hn, s => by
    obtain ⟨s₁, hvisit, hself⟩ := hd.visit s v
    have hkeep := fun u => hd.keep s v s₁ u hvisit
    have hsucc : ∀ w ∈ succ v, rank w < n := fun w hw => by have := hr v w hw; omega
    obtain ⟨h1, h2, -⟩ := forEach_done Done (succ v)
      (fun w hw s => by
        obtain ⟨h1, h2, h3⟩ := dfs_done hd hr n w (hsucc w hw) s
        exact ⟨h1, h3 w .refl, h2⟩) s₁
    simp only [dfs, hvisit]
    refine ⟨h1, fun u hu => h2 u (hkeep u hu), fun u hu => ?_⟩
    rcases hu.cases_head with rfl | ⟨w, hw, hwu⟩
    · exact h2 v hself
    · -- `u` is reached from the successor `w`
      obtain ⟨h1, -, h3⟩ := forEach_done (fun s x =>
          ∀ u, Relation.ReflTransGen (fun a b => b ∈ succ a) x u → Done s u) (succ v)
        (fun x hx s => by
          obtain ⟨h1, h2, h3⟩ := dfs_done hd hr n x (hsucc x hx) s
          exact ⟨h1, h3, fun y hy u hu => h2 u (hy u hu)⟩) s₁
      exact h3 w hw u hwu

end Catkit2
