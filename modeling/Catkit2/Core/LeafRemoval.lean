import Mathlib.Data.Fintype.Order
import Mathlib.Data.List.Basic
import Mathlib.Logic.Relation

/-!
# Removing leaves from a directed graph

`R u v` is an edge from `u` to `v`. A vertex of `alive` is a leaf when no
vertex of `alive` has an edge to it. Removing leaves over and over empties
the list exactly when the graph has no cycle:

* `wellFounded_of_not_cyclic`, `exists_leaf`: without a cycle, every path ends, and
  there is a leaf to remove.
* `cyclic_remove_iff`: removing leaves neither makes nor breaks a cycle.
* `exists_level`: the vertices of a graph without a cycle can be numbered along
  its edges.
-/
namespace Catkit2

universe u

variable {V : Type u} {R : V → V → Prop}

/-- Some vertex leads back to itself, by one edge or more. -/
def Cyclic (R : V → V → Prop) : Prop := ∃ v, Relation.TransGen R v v

/-- The edges between vertices of `alive`. -/
def Within (R : V → V → Prop) (alive : List V) (u v : V) : Prop := u ∈ alive ∧ v ∈ alive ∧ R u v

def Leaf (R : V → V → Prop) (alive : List V) (v : V) : Prop := ∀ u ∈ alive, ¬ R u v

theorem Cyclic.mono {S : V → V → Prop} (h : ∀ u v, R u v → S u v) (hc : Cyclic R) : Cyclic S := by
  obtain ⟨v, hv⟩ := hc
  exact ⟨v, Relation.TransGen.mono h v v hv⟩

/-- A cycle of a graph whose edges join listed vertices is a cycle of the list. -/
theorem cyclic_within_iff {alive : List V} (h : ∀ u v, R u v → u ∈ alive ∧ v ∈ alive) :
    Cyclic (Within R alive) ↔ Cyclic R :=
  ⟨.mono fun _ _ he => he.2.2, .mono fun u v he => ⟨(h u v he).1, (h u v he).2, he⟩⟩

/-- Without a cycle, the edges between finitely many vertices lead nowhere for ever. -/
theorem wellFounded_of_not_cyclic {alive : List V} (hc : ¬ Cyclic (Within R alive)) :
    WellFounded fun u v : {v // v ∈ alive} => R u v := by
  let r : {v // v ∈ alive} → {v // v ∈ alive} → Prop := fun u v => R u v
  have hlift : ∀ u v, Relation.TransGen r u v → Relation.TransGen (Within R alive) u v := by
    intro u v huv
    exact Relation.TransGen.lift Subtype.val (fun a b hab => ⟨a.2, b.2, hab⟩) u v huv
  have hirr : Std.Irrefl (Relation.TransGen r) := ⟨fun v hv => hc ⟨v, hlift v v hv⟩⟩
  have : Finite {v // v ∈ alive} := alive.finite_toSet
  have hwf : WellFounded (Relation.TransGen r) := Finite.wellFounded_of_trans_of_irrefl _
  exact Subrelation.wf (fun h => .single h) hwf

/-- Every vertex of an acyclic graph is reached from a leaf, so there is one. -/
theorem exists_leaf {alive : List V} (hne : alive ≠ []) (hc : ¬ Cyclic (Within R alive)) :
    ∃ v ∈ alive, Leaf R alive v := by
  obtain ⟨w, hw⟩ := List.exists_mem_of_ne_nil alive hne
  obtain ⟨⟨v, hv⟩, -, hmin⟩ := (wellFounded_of_not_cyclic hc).has_min Set.univ ⟨⟨w, hw⟩, trivial⟩
  exact ⟨v, hv, fun u hu huv => hmin ⟨u, hu⟩ trivial huv⟩

variable [DecidableEq V]

/-- A path that starts at no leaf passes through none: each further vertex has
the one before it. -/
theorem transGen_remove {alive leaves : List V} (hl : ∀ v ∈ leaves, Leaf R alive v) {a b : V}
    (ha : a ∉ leaves) (h : Relation.TransGen (Within R alive) a b) :
    Relation.TransGen (Within R (alive.filter (· ∉ leaves))) a b ∧ b ∉ leaves := by
  have hstep : ∀ {u v : V}, u ∉ leaves → Within R alive u v →
      Within R (alive.filter (· ∉ leaves)) u v ∧ v ∉ leaves := by
    rintro u v hu ⟨hua, hva, huv⟩
    have hv : v ∉ leaves := fun hv => hl v hv u hua huv
    refine ⟨⟨?_, ?_, huv⟩, hv⟩
    · exact List.mem_filter.mpr ⟨hua, decide_eq_true hu⟩
    · exact List.mem_filter.mpr ⟨hva, decide_eq_true hv⟩
  induction h with
  | single hab =>
    obtain ⟨h1, h2⟩ := hstep ha hab
    exact ⟨.single h1, h2⟩
  | tail _ hbc ih =>
    obtain ⟨h1, h2⟩ := hstep ih.2 hbc
    exact ⟨ih.1.tail h1, h2⟩

/-- Removing leaves neither makes nor breaks a cycle. -/
theorem cyclic_remove_iff {alive leaves : List V} (hl : ∀ v ∈ leaves, Leaf R alive v) :
    Cyclic (Within R (alive.filter (· ∉ leaves))) ↔ Cyclic (Within R alive) := by
  constructor
  · refine .mono fun u v he => ?_
    exact ⟨(List.mem_filter.mp he.1).1, (List.mem_filter.mp he.2.1).1, he.2.2⟩
  · rintro ⟨v, hv⟩
    -- the last edge of the cycle leads to `v`
    have hnot : v ∉ leaves := by
      intro hmem
      obtain ⟨u, -, hu⟩ := Relation.TransGen.tail'_iff.mp hv
      exact hl v hmem u hu.1 hu.2.2
    exact ⟨v, (transGen_remove hl hnot hv).1⟩

/-- The order of removal numbers the vertices along the edges. -/
theorem exists_level : ∀ (n : Nat) (alive : List V), alive.length ≤ n → ¬ Cyclic (Within R alive) →
    ∃ level : V → Nat, (∀ u v, Within R alive u v → level u < level v) ∧ ∀ v, level v ≤ n
  | 0, alive, hlen, _ => by
    have hnil : alive = [] := List.length_eq_zero_iff.mp (Nat.le_zero.mp hlen)
    subst hnil
    exact ⟨fun _ => 0, fun u v he => absurd he.1 List.not_mem_nil, fun _ => Nat.le_refl 0⟩
  | n + 1, alive, hlen, hc => by
    by_cases hne : alive = []
    · subst hne
      exact ⟨fun _ => 0, fun u v he => absurd he.1 List.not_mem_nil, fun _ => Nat.zero_le _⟩
    · obtain ⟨v, hv, hleaf⟩ := exists_leaf hne hc
      have hl : ∀ w ∈ [v], Leaf R alive w := by
        intro w hw
        rw [List.mem_singleton] at hw
        exact hw ▸ hleaf
      have hlt : (alive.filter (· ∉ [v])).length < alive.length :=
        List.length_filter_lt_length_iff_exists.mpr ⟨v, hv, by simp⟩
      obtain ⟨level, hlevel, hle⟩ := exists_level n (alive.filter (· ∉ [v])) (by omega)
        (fun h => hc ((cyclic_remove_iff hl).mp h))
      -- the leaf comes first
      refine ⟨fun x => if x = v then 0 else level x + 1, fun a b hab => ?_, fun x => ?_⟩
      · have hb : b ≠ v := by
          rintro rfl
          exact hleaf a hab.1 hab.2.2
        simp only [if_neg hb]
        split
        · exact Nat.succ_pos _
        · rename_i ha
          refine Nat.succ_lt_succ (hlevel a b ⟨?_, ?_, hab.2.2⟩)
          · exact List.mem_filter.mpr ⟨hab.1, by simpa using ha⟩
          · exact List.mem_filter.mpr ⟨hab.2.1, by simpa using hb⟩
      · have := hle x
        simp only
        split <;> omega

end Catkit2
