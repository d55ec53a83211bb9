import Mathlib.Data.List.Nodup
import Mathlib.Data.List.Perm.Basic
import Mathlib.Order.Lattice

/-!
# Ordered association lists

A `std::map` as the list of its entries in key order. `Sorted` is the
invariant, `insert` is `std::map::insert` (an existing key keeps its value),
`ofEntries` inserts a sequence of entries into an empty map. `assign` is
`map[key] = value`, and `find` looks a key up.

* `ofEntries_perm`: a map is rebuilt from its own entries, in whatever order
  they are inserted.
* `find_assignAll`: what the entries assigned last do not name stays.
-/
namespace Catkit2.OrdMap

variable {κ ν : Type*}

/-- The keys of the entries, in order. -/
def keys (d : List (κ × ν)) : List κ := d.map Prod.fst

@[simp] theorem keys_cons (e : κ × ν) (d : List (κ × ν)) : keys (e :: d) = e.1 :: keys d := rfl

variable [LinearOrder κ]

def Sorted (d : List (κ × ν)) : Prop := d.Pairwise fun a b => a.1 < b.1

def insert : List (κ × ν) → κ → ν → List (κ × ν)
  | [], k, v => [(k, v)]
  | e :: d, k, v =>
    if k < e.1 then (k, v) :: e :: d
    else if e.1 < k then e :: insert d k v
    else e :: d

/-- Insert the entries one after the other. -/
def insertAll (d : List (κ × ν)) (l : List (κ × ν)) : List (κ × ν) :=
  l.foldl (fun d e => insert d e.1 e.2) d

def ofEntries (l : List (κ × ν)) : List (κ × ν) := insertAll [] l

theorem insert_perm (d : List (κ × ν)) (k : κ) (v : ν) (h : k ∉ keys d) :
    (insert d k v).Perm ((k, v) :: d) := by
  induction d with
  | nil => exact .refl _
  | cons e d ih =>
    simp only [keys_cons, List.mem_cons, not_or] at h
    simp only [insert]
    split
    · exact .refl _
    · split
      · exact ((ih h.2).cons e).trans (.swap _ _ _)
      · rename_i h1 h2
        exact absurd (le_antisymm (not_lt.mp h2) (not_lt.mp h1)) h.1

theorem mem_of_mem_insert (d : List (κ × ν)) (k : κ) (v : ν) {a : κ × ν} (h : a ∈ insert d k v) :
    a = (k, v) ∨ a ∈ d := by
  induction d with
  | nil => exact .inl (List.mem_singleton.mp h)
  | cons e d ih =>
    simp only [insert] at h
    split at h
    · exact List.mem_cons.mp h
    · split at h
      · rcases List.mem_cons.mp h with rfl | h
        · exact .inr List.mem_cons_self
        · exact (ih h).imp_right (List.mem_cons_of_mem _)
      · exact .inr h

theorem insert_sorted (d : List (κ × ν)) (k : κ) (v : ν) (h : Sorted d) : Sorted (insert d k v) := by
  induction d with
  | nil => exact List.pairwise_singleton _ _
  | cons e d ih =>
    have hd := List.pairwise_cons.mp h
    simp only [insert]
    split
    · rename_i hk
      refine List.pairwise_cons.mpr ⟨fun a ha => ?_, h⟩
      rcases List.mem_cons.mp ha with rfl | ha
      · exact hk
      · exact hk.trans (hd.1 a ha)
    · split
      · rename_i hk
        refine List.pairwise_cons.mpr ⟨fun a ha => ?_, ih hd.2⟩
        rcases mem_of_mem_insert d k v ha with rfl | ha
        · exact hk
        · exact hd.1 a ha
      · exact h

theorem insertAll_sorted (l d : List (κ × ν)) (h : Sorted d) : Sorted (insertAll d l) := by
  induction l generalizing d with
  | nil => exact h
  | cons e l ih => exact ih _ (insert_sorted d e.1 e.2 h)

theorem insertAll_perm (l d : List (κ × ν)) (hl : (keys l).Nodup)
    (hd : ∀ k ∈ keys l, k ∉ keys d) : (insertAll d l).Perm (l ++ d) := by
  induction l generalizing d with
  | nil => exact .refl _
  | cons e l ih =>
    simp only [keys_cons, List.nodup_cons] at hl
    have hins := insert_perm d e.1 e.2 (hd e.1 List.mem_cons_self)
    have hkeys : ∀ k ∈ keys l, k ∉ keys (insert d e.1 e.2) := by
      intro k hk hin
      have : k ∈ keys ((e.1, e.2) :: d) := (hins.map Prod.fst).mem_iff.mp hin
      rcases List.mem_cons.mp this with rfl | hkd
      · exact hl.1 hk
      · exact hd k (List.mem_cons_of_mem _ hk) hkd
    exact (ih _ hl.2 hkeys).trans
      ((hins.append_left l).trans List.perm_middle)

theorem Sorted.nodup {d : List (κ × ν)} (h : Sorted d) : (keys d).Nodup :=
  List.pairwise_map.mpr (h.imp fun hab => ne_of_lt hab)

/-- Two sorted lists with the same entries are the same map. -/
theorem Sorted.eq_of_perm {d e : List (κ × ν)} (hd : Sorted d) (he : Sorted e) (h : d.Perm e) :
    d = e :=
  h.eq_of_pairwise (fun _ _ _ _ hab hba => absurd (hab.trans hba) (lt_irrefl _)) hd he

/-- A map is rebuilt from its entries, in whatever order they come. -/
theorem ofEntries_perm {d l : List (κ × ν)} (hd : Sorted d) (h : d.Perm l) : ofEntries l = d := by
  have hnd : (keys l).Nodup := (h.map Prod.fst).nodup_iff.mp hd.nodup
  have hp : (ofEntries l).Perm l := by
    have := insertAll_perm l [] hnd (fun _ _ h => by cases h)
    rwa [List.append_nil] at this
  exact (insertAll_sorted l [] List.Pairwise.nil).eq_of_perm hd (hp.trans h.symm)

/-! ## Assigning -/

def assign : List (κ × ν) → κ → ν → List (κ × ν)
  | [], k, v => [(k, v)]
  | e :: d, k, v =>
    if k < e.1 then (k, v) :: e :: d
    else if e.1 < k then e :: assign d k v
    else (k, v) :: d

def assignAll (d : List (κ × ν)) (l : List (κ × ν)) : List (κ × ν) :=
  l.foldl (fun d e => assign d e.1 e.2) d

def find : List (κ × ν) → κ → Option ν
  | [], _ => none
  | e :: d, k => if e.1 = k then some e.2 else find d k

theorem mem_of_mem_assign (d : List (κ × ν)) (k : κ) (v : ν) {a : κ × ν} (h : a ∈ assign d k v) :
    a = (k, v) ∨ a ∈ d := by
  induction d with
  | nil => exact .inl (List.mem_singleton.mp h)
  | cons e d ih =>
    simp only [assign] at h
    split at h
    · exact List.mem_cons.mp h
    · split at h
      · rcases List.mem_cons.mp h with rfl | h
        · exact .inr List.mem_cons_self
        · exact (ih h).imp_right (List.mem_cons_of_mem _)
      · exact (List.mem_cons.mp h).imp_right (List.mem_cons_of_mem _)

theorem assign_sorted (d : List (κ × ν)) (k : κ) (v : ν) (h : Sorted d) : Sorted (assign d k v) := by
  induction d with
  | nil => exact List.pairwise_singleton _ _
  | cons e d ih =>
    have hd := List.pairwise_cons.mp h
    simp only [assign]
    split
    · rename_i hk
      refine List.pairwise_cons.mpr ⟨fun a ha => ?_, h⟩
      rcases List.mem_cons.mp ha with rfl | ha
      · exact hk
      · exact hk.trans (hd.1 a ha)
    · split
      · rename_i hk
        refine List.pairwise_cons.mpr ⟨fun a ha => ?_, ih hd.2⟩
        rcases mem_of_mem_assign d k v ha with rfl | ha
        · exact hk
        · exact hd.1 a ha
      · rename_i h1 h2
        have hkey : e.1 = k := le_antisymm (not_lt.mp h1) (not_lt.mp h2)
        refine List.pairwise_cons.mpr ⟨fun a ha => ?_, hd.2⟩
        rw [← hkey]
        exact hd.1 a ha

theorem assignAll_sorted (l d : List (κ × ν)) (h : Sorted d) : Sorted (assignAll d l) := by
  induction l generalizing d with
  | nil => exact h
  | cons e l ih => exact ih _ (assign_sorted d e.1 e.2 h)

theorem find_eq_none {d : List (κ × ν)} {k : κ} : find d k = none ↔ k ∉ keys d := by
  induction d with
  | nil => simp [find, keys]
  | cons e d ih =>
    simp only [find, keys_cons, List.mem_cons, not_or]
    by_cases hk : e.1 = k
    · simp [hk]
    · rw [if_neg hk, ih]
      exact ⟨fun h => ⟨fun he => hk he.symm, h⟩, fun h => h.2⟩

theorem find_eq_some {d : List (κ × ν)} (hd : (keys d).Nodup) {k : κ} {v : ν} :
    find d k = some v ↔ (k, v) ∈ d := by
  induction d with
  | nil => simp [find]
  | cons e d ih =>
    simp only [keys_cons, List.nodup_cons] at hd
    simp only [find, List.mem_cons]
    by_cases hk : e.1 = k
    · rw [if_pos hk]
      refine ⟨fun h => .inl (Prod.ext hk.symm (Option.some.inj h).symm), ?_⟩
      rintro (rfl | h)
      · rfl
      · subst hk
        exact absurd (List.mem_map_of_mem (f := Prod.fst) h) hd.1
    · rw [if_neg hk, ih hd.2]
      refine ⟨.inr, ?_⟩
      rintro (rfl | h)
      · exact absurd rfl hk
      · exact h

theorem find_assign (d : List (κ × ν)) (k : κ) (v : ν) (k' : κ) :
    find (assign d k v) k' = if k = k' then some v else find d k' := by
  induction d with
  | nil => rfl
  | cons e d ih =>
    simp only [assign]
    split
    · rfl
    · split
      · rename_i hk
        simp only [find, ih]
        by_cases he : e.1 = k'
        · have hne : k ≠ k' := by
            rintro rfl
            exact lt_irrefl k (he ▸ hk)
          simp only [if_pos he, if_neg hne]
        · simp only [if_neg he]
      · rename_i h1 h2
        have hkey : e.1 = k := le_antisymm (not_lt.mp h1) (not_lt.mp h2)
        simp only [find, hkey]
        split <;> rfl

/-- What is not assigned stays. -/
theorem find_assignAll (l d : List (κ × ν)) (hl : (keys l).Nodup) (k : κ) :
    find (assignAll d l) k = (find l k).or (find d k) := by
  induction l generalizing d with
  | nil => rfl
  | cons e l ih =>
    simp only [keys_cons, List.nodup_cons] at hl
    show find (assignAll (assign d e.1 e.2) l) k = _
    rw [ih _ hl.2, find_assign]
    simp only [find]
    by_cases hk : e.1 = k
    · subst hk
      rw [if_pos rfl, if_pos rfl, find_eq_none.mpr hl.1]
      rfl
    · rw [if_neg hk, if_neg hk]

theorem find_perm {d l : List (κ × ν)} (hd : (keys d).Nodup) (h : d.Perm l) (k : κ) : find l k = find d k := by
  have hl : (keys l).Nodup := (h.map Prod.fst).nodup_iff.mp hd
  refine Option.ext fun v => ?_
  rw [find_eq_some hl, find_eq_some hd, h.mem_iff]

/-- Two maps that answer alike are the same. -/
theorem Sorted.ext {d e : List (κ × ν)} (hd : Sorted d) (he : Sorted e) (h : ∀ k, find d k = find e k) :
    d = e := by
  refine hd.eq_of_perm he ?_
  have hnd := List.Nodup.of_map Prod.fst hd.nodup
  have hne := List.Nodup.of_map Prod.fst he.nodup
  refine (List.perm_ext_iff_of_nodup hnd hne).mpr fun a => ?_
  rw [← find_eq_some hd.nodup (k := a.1) (v := a.2), ← find_eq_some he.nodup, h]

end Catkit2.OrdMap
