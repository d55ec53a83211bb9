import Catkit2.Core.LeafRemoval
import Mathlib.Data.List.Nodup

/-!
# Names that stand for names

A table maps a name to a value or to another name. From an entry a chain of names
leads on: it ends in a value, it reaches a name that the table does not have, or,
if the table is finite, it runs in a circle.

* `ends_or_unknown_or_circular`: one of the three,
* `Ends.unique`, `Unknown.unique`, `Unknown.not_ends`, `Circular.not_ends`,
  `Circular.not_unknown`: and only one, with one result.
* `Ends.le_length`: a chain that ends is no longer than the table.
-/
namespace Catkit2.Aliases

variable {ν α : Type}

inductive Entry (ν α : Type) where
  | name (n : ν)
  | value (v : α)
  deriving DecidableEq

/-- A chain of `k` names from the entry ends in the value. -/
inductive Ends (table : ν → Option (Entry ν α)) : Entry ν α → Nat → α → Prop
  | value (v : α) : Ends table (.value v) 0 v
  | name {n : ν} {e : Entry ν α} {k : Nat} {v : α} (h : table n = some e) (he : Ends table e k v) :
    Ends table (.name n) (k + 1) v

/-- A chain of `k` names from the entry reaches a name that is not there. -/
inductive Unknown (table : ν → Option (Entry ν α)) : Entry ν α → Nat → ν → Prop
  | here {n : ν} (h : table n = none) : Unknown table (.name n) 0 n
  | name {n m : ν} {e : Entry ν α} {k : Nat} (h : table n = some e) (he : Unknown table e k m) :
    Unknown table (.name n) (k + 1) m

/-- `n` stands for the name `m`. -/
def Alias (table : ν → Option (Entry ν α)) (n m : ν) : Prop := table n = some (.name m)

/-- The chain reaches a name that stands for itself by way of others. -/
def Circular (table : ν → Option (Entry ν α)) : Entry ν α → Prop
  | .value _ => False
  | .name n => ∃ m, Relation.ReflTransGen (Alias table) n m ∧ Relation.TransGen (Alias table) m m

variable {table : ν → Option (Entry ν α)} {e : Entry ν α} {n m : ν} {k : Nat} {v : α}

/-! ## At most one of the three -/

theorem Ends.unique {k' : Nat} {v' : α} (h : Ends table e k v) (h' : Ends table e k' v') : k = k' ∧ v = v' := by
  induction h generalizing k' with
  | value v =>
    cases h'
    exact ⟨rfl, rfl⟩
  | name hn _ ih =>
    cases h' with
    | name hn' he' =>
      cases hn.symm.trans hn'
      obtain ⟨rfl, rfl⟩ := ih he'
      exact ⟨rfl, rfl⟩

theorem Unknown.unique {k' : Nat} (h : Unknown table e k n) (h' : Unknown table e k' m) : k = k' ∧ n = m := by
  induction h generalizing k' with
  | here hn =>
    cases h' with
    | here _ => exact ⟨rfl, rfl⟩
    | name hn' _ => cases hn.symm.trans hn'
  | name hn _ ih =>
    cases h' with
    | here hn' => cases hn.symm.trans hn'
    | name hn' he' =>
      cases hn.symm.trans hn'
      obtain ⟨rfl, rfl⟩ := ih he'
      exact ⟨rfl, rfl⟩

theorem Unknown.not_ends {k' : Nat} (h : Unknown table e k' n) : ¬ Ends table e k v := by
  intro hends
  induction h generalizing k with
  | here hn =>
    cases hends with
    | name hn' _ => cases hn.symm.trans hn'
  | name hn _ ih =>
    cases hends with
    | name hn' he' =>
      cases hn.symm.trans hn'
      exact ih he'

/-- A circle goes on. -/
theorem Circular.next (h : Circular table (.name n)) : ∃ m, table n = some (.name m) ∧ Circular table (.name m) := by
  obtain ⟨m, hreach, hcycle⟩ := h
  rcases Relation.ReflTransGen.cases_head hreach with rfl | ⟨n', hn, hreach'⟩
  · obtain ⟨n', hn, hback⟩ := Relation.TransGen.head'_iff.mp hcycle
    exact ⟨n', hn, n, hback, hcycle⟩
  · exact ⟨n', hn, m, hreach', hcycle⟩

theorem Circular.not_ends (h : Circular table e) : ¬ Ends table e k v := by
  intro hends
  induction hends with
  | value v => exact h
  | name hn _ ih =>
    obtain ⟨m, hm, hc⟩ := h.next
    cases hn.symm.trans hm
    exact ih hc

theorem Circular.not_unknown (h : Circular table e) : ¬ Unknown table e k n := by
  intro hunknown
  induction hunknown with
  | here hn =>
    obtain ⟨m, hm, -⟩ := h.next
    cases hn.symm.trans hm
  | name hn _ ih =>
    obtain ⟨m, hm, hc⟩ := h.next
    cases hn.symm.trans hm
    exact ih hc

/-! ## One of the three, in a finite table -/

/-- Without a circle behind it, a name of a finite table leads to an end. -/
theorem ends_or_unknown_of_not_circular {names : List ν} (hnames : ∀ n, table n ≠ none → n ∈ names)
    (hc : ¬ Circular table (.name n)) :
    (∃ k v, Ends table (.name n) k v) ∨ ∃ k m, Unknown table (.name n) k m := by
  -- the names that `n` leads to, each below the one before it
  let R : ν → ν → Prop := fun b a => Alias table a b ∧ Relation.ReflTransGen (Alias table) n a
  have hlift : ∀ a b, Relation.TransGen (Within R names) b a →
      Relation.TransGen (Alias table) a b ∧ Relation.ReflTransGen (Alias table) n a := by
    intro a b h
    induction h with
    | single h => exact ⟨.single h.2.2.1, h.2.2.2⟩
    | tail _ h ih => exact ⟨.head h.2.2.1 ih.1, h.2.2.2⟩
  have hacyclic : ¬ Cyclic (Within R names) := by
    rintro ⟨a, ha⟩
    obtain ⟨hcycle, hreach⟩ := hlift a a ha
    exact hc ⟨a, hreach, hcycle⟩
  have hwf := wellFounded_of_not_cyclic hacyclic
  have hall : ∀ a : {m // m ∈ names}, Relation.ReflTransGen (Alias table) n a →
      (∃ k v, Ends table (.name a.1) k v) ∨ ∃ k m, Unknown table (.name a.1) k m := by
    intro a
    induction a using hwf.induction with
    | _ a ih =>
      intro ha
      cases h : table a.1 with
      | none => exact .inr ⟨0, a, .here h⟩
      | some e =>
        cases e with
        | value v => exact .inl ⟨1, v, .name h (.value v)⟩
        | name b =>
          by_cases hb : table b = none
          · exact .inr ⟨1, b, .name h (.here hb)⟩
          · rcases ih ⟨b, hnames b hb⟩ ⟨h, ha⟩ (ha.tail h) with ⟨k, v, he⟩ | ⟨k, m, he⟩
            · exact .inl ⟨k + 1, v, .name h he⟩
            · exact .inr ⟨k + 1, m, .name h he⟩
  by_cases hn : table n = none
  · exact .inr ⟨0, n, .here hn⟩
  · exact hall ⟨n, hnames n hn⟩ .refl

/-- **Where a chain leads.** -/
theorem ends_or_unknown_or_circular {names : List ν} (hnames : ∀ n, table n ≠ none → n ∈ names) (e : Entry ν α) :
    (∃ k v, Ends table e k v) ∨ (∃ k m, Unknown table e k m) ∨ Circular table e := by
  cases e with
  | value v => exact .inl ⟨0, v, .value v⟩
  | name n =>
    by_cases hc : Circular table (.name n)
    · exact .inr (.inr hc)
    · rcases ends_or_unknown_of_not_circular hnames hc with h | h
      · exact .inl h
      · exact .inr (.inl h)

/-! ## How long a chain is -/

/-- The names of a chain that ends are distinct, as each is nearer to the end. -/
theorem Ends.exists_names {names : List ν} (hnames : ∀ n, table n ≠ none → n ∈ names) (h : Ends table e k v) :
    ∃ l : List ν, l.length = k ∧ l.Nodup ∧ l ⊆ names ∧ ∀ n ∈ l, ∃ j w, j ≤ k ∧ Ends table (.name n) j w := by
  induction h with
  | value v => exact ⟨[], rfl, List.nodup_nil, List.nil_subset _, nofun⟩
  | @name n e k v hn he ih =>
    obtain ⟨l, hlen, hnodup, hsub, hends⟩ := ih
    have hnew : n ∉ l := by
      intro hmem
      obtain ⟨j, w, hj, hw⟩ := hends n hmem
      obtain ⟨hjk, -⟩ := hw.unique (.name hn he)
      omega
    refine ⟨n :: l, by rw [List.length_cons, hlen], List.nodup_cons.mpr ⟨hnew, hnodup⟩, ?_, ?_⟩
    · exact List.cons_subset.mpr ⟨hnames n (by rw [hn]; nofun), hsub⟩
    · intro m hm
      rcases List.mem_cons.mp hm with rfl | hm
      · exact ⟨k + 1, v, Nat.le_refl _, .name hn he⟩
      · obtain ⟨j, w, hj, hw⟩ := hends m hm
        exact ⟨j, w, by omega, hw⟩

theorem Ends.le_length {names : List ν} (hnames : ∀ n, table n ≠ none → n ∈ names) (h : Ends table e k v) :
    k ≤ names.length := by
  obtain ⟨l, rfl, hnodup, hsub, -⟩ := h.exists_names hnames
  exact (hnodup.subperm hsub).length_le

end Catkit2.Aliases
