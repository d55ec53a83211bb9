import Mathlib.Data.List.Perm.Basic
import Mathlib.Order.Lattice

/-!
# Binary heaps in a list

The heap queue of Python's standard library (`heapq`): a list in which the
entry at `i` is not before the one at `(i - 1) / 2`. Entries are compared by
their `key`.

`siftdown` moves an entry towards the root for as long as it is before its
parent. `siftup` first moves an entry to a leaf, always up from it the smaller
child, and then calls `siftdown`. Both exchange neighbours, so that a heap is
permuted, and an invariant says which pairs may be out of order on the way:
`Sinking` and `Rising`.

* `heappush_isHeap`, `heappop_isHeap`, `heapify_isHeap`: the results are heaps.
* `heappush_perm`, `heappop_perm`, `heapify_perm`: with the right entries.
* `heappop_le`: what is popped comes first.
-/
namespace Catkit2.Heapq

universe u v

variable {α : Type u} {κ : Type v} [LinearOrder κ] (key : α → κ)

/-! ## Operations -/

def parent (i : Nat) : Nat := (i - 1) / 2

def swap (h : List α) (i j : Nat) : List α :=
  match h[i]?, h[j]? with
  | some a, some b => (h.set i b).set j a
  | _, _ => h

/-- `heap[i] < heap[j]` -/
def before (h : List α) (i j : Nat) : Bool :=
  match h[i]?, h[j]? with
  | some a, some b => key a < key b
  | _, _ => false

/-- `_siftdown`; the position is enough fuel. -/
def siftdown (startpos : Nat) : Nat → List α → Nat → List α
  | 0, h, _ => h
  | n + 1, h, pos =>
    if startpos < pos ∧ before key h pos (parent pos) then
      siftdown startpos n (swap h pos (parent pos)) (parent pos)
    else h

/-- The smaller child of `pos`, the left one if there is no right one. -/
def child (h : List α) (pos : Nat) : Nat :=
  if 2 * pos + 2 < h.length ∧ ¬ before key h (2 * pos + 1) (2 * pos + 2) then 2 * pos + 2 else 2 * pos + 1

/-- The loop of `_siftup`: the list, and the leaf that is reached. -/
def sink : Nat → List α → Nat → List α × Nat
  | 0, h, pos => (h, pos)
  | n + 1, h, pos =>
    if 2 * pos + 1 < h.length then sink n (swap h pos (child key h pos)) (child key h pos) else (h, pos)

/-- `_siftup` -/
def siftup (h : List α) (pos : Nat) : List α :=
  let (h, leaf) := sink key h.length h pos
  siftdown key pos leaf h leaf

def heappush (h : List α) (x : α) : List α := siftdown key 0 h.length (h ++ [x]) h.length

/-- `none` where Python raises an `IndexError`. -/
def heappop (h : List α) : Option (α × List α) :=
  match h.getLast? with
  | none => none
  | some last =>
    match h.dropLast with
    | [] => some (last, [])
    | first :: rest => some (first, siftup key (last :: rest) 0)

def heapify (h : List α) : List α := (List.range (h.length / 2)).foldr (fun i h => siftup key h i) h

/-! ## Swaps -/

theorem swap_eq {h : List α} {i j : Nat} {a b : α} (hi : h[i]? = some a) (hj : h[j]? = some b) :
    swap h i j = (h.set i b).set j a := by
  simp only [swap, hi, hj]

@[simp] theorem length_swap (h : List α) (i j : Nat) : (swap h i j).length = h.length := by
  unfold swap
  split <;> simp

theorem swap_perm (h : List α) (i j : Nat) : (swap h i j).Perm h := by
  unfold swap
  split
  · rename_i a b ha hb
    obtain ⟨hi, rfl⟩ := List.getElem?_eq_some_iff.mp ha
    obtain ⟨hj, rfl⟩ := List.getElem?_eq_some_iff.mp hb
    exact List.set_set_perm hi hj
  · exact .refl _

theorem getElem?_swap_left {h : List α} {i j : Nat} (hi : i < h.length) (hj : j < h.length) :
    (swap h i j)[i]? = h[j]? := by
  rw [swap_eq (List.getElem?_eq_getElem hi) (List.getElem?_eq_getElem hj)]
  by_cases hij : j = i
  · subst hij
    simp [hj]
  · rw [List.getElem?_set_ne hij, List.getElem?_set_self hi, List.getElem?_eq_getElem hj]

theorem getElem?_swap_right {h : List α} {i j : Nat} (hi : i < h.length) (hj : j < h.length) :
    (swap h i j)[j]? = h[i]? := by
  rw [swap_eq (List.getElem?_eq_getElem hi) (List.getElem?_eq_getElem hj),
    List.getElem?_set_self (by simpa using hj), List.getElem?_eq_getElem hi]

theorem getElem?_swap_of_ne (h : List α) {i j k : Nat} (hi : k ≠ i) (hj : k ≠ j) :
    (swap h i j)[k]? = h[k]? := by
  unfold swap
  split
  · rw [List.getElem?_set_ne (Ne.symm hj), List.getElem?_set_ne (Ne.symm hi)]
  · rfl

/-! ## Order -/

/-- The entry at `i` is not after the one at `j`, if both exist. -/
def Le (h : List α) (i j : Nat) : Prop := ∀ a ∈ h[i]?, ∀ b ∈ h[j]?, key a ≤ key b

/-- Below `k` every entry is not before its parent. -/
def OrderedFrom (k : Nat) (h : List α) : Prop := ∀ i, 0 < i → k ≤ parent i → Le key h (parent i) i

def IsHeap (h : List α) : Prop := OrderedFrom key 0 h

variable {key}

theorem Le.congr {h h' : List α} {i j i' j' : Nat} (hle : Le key h i j) (hi : h'[i']? = h[i]?)
    (hj : h'[j']? = h[j]?) : Le key h' i' j' := by
  intro a ha b hb
  rw [hi] at ha
  rw [hj] at hb
  exact hle a ha b hb

theorem Le.trans {h : List α} {i j k : Nat} (h₁ : Le key h i j) (h₂ : Le key h j k) (hj : j < h.length) :
    Le key h i k := by
  intro a ha c hc
  have hb : h[j] ∈ h[j]? := List.getElem?_eq_getElem hj
  exact le_trans (h₁ a ha _ hb) (h₂ _ hb c hc)

theorem le_of_before {h : List α} {i j : Nat} (hb : before key h i j = true) : Le key h i j := by
  intro a ha b hb'
  rw [Option.mem_def] at ha hb'
  simp only [before, ha, hb', decide_eq_true_eq] at hb
  exact hb.le

theorem le_of_not_before {h : List α} {i j : Nat} (hb : before key h i j = false) : Le key h j i := by
  intro a ha b hb'
  rw [Option.mem_def] at ha hb'
  simp only [before, ha, hb', decide_eq_false_iff_not, not_lt] at hb
  exact hb

theorem le_of_length_le {h : List α} {i j : Nat} (hj : h.length ≤ j) : Le key h i j := by
  intro a _ b hb
  rw [List.getElem?_eq_none hj] at hb
  cases hb

theorem parent_lt {i : Nat} (hi : 0 < i) : parent i < i := by
  unfold parent
  omega

theorem children_of_parent {i pos : Nat} (hi : 0 < i) (h : parent i = pos) :
    i = 2 * pos + 1 ∨ i = 2 * pos + 2 := by
  unfold parent at h
  omega

/-- `pos` is `k`, or below it. -/
inductive Under (k : Nat) : Nat → Prop
  | self : Under k k
  | child {i : Nat} : 0 < i → Under k (parent i) → Under k i

theorem Under.le {k pos : Nat} (h : Under k pos) : k ≤ pos := by
  induction h with
  | self => exact Nat.le_refl k
  | child hi _ ih => exact Nat.le_trans ih (Nat.le_of_lt (parent_lt hi))

theorem Under.parent {k pos : Nat} (h : Under k pos) (hne : pos ≠ k) : Under k (parent pos) := by
  cases h with
  | self => exact absurd rfl hne
  | child _ h => exact h

/-! ## Towards the root -/

/-- All pairs are in order but that of `pos` and its parent, and the children
of `pos` are in order with its parent. -/
structure Rising (key : α → κ) (k pos : Nat) (h : List α) : Prop where
  under : Under k pos
  away : ∀ i, 0 < i → k ≤ parent i → i ≠ pos → Le key h (parent i) i
  grand : pos ≠ k → ∀ c, 0 < c → parent c = pos → Le key h (parent pos) c

/-- An entry that is before its parent changes places with it. -/
theorem Rising.swap {k pos : Nat} {h : List α} (hr : Rising key k pos h) (hk : k < pos)
    (hpos : pos < h.length) (hb : before key h pos (parent pos) = true) :
    Rising key k (parent pos) (swap h pos (parent pos)) := by
  have hp : parent pos < pos := parent_lt (by omega)
  have hself := getElem?_swap_right hpos (Nat.lt_trans hp hpos)
  have hchild := getElem?_swap_left hpos (Nat.lt_trans hp hpos)
  have hkp : k ≤ parent pos := (hr.under.parent (by omega)).le
  refine ⟨hr.under.parent (by omega), fun i hi hki hne => ?_, fun hne c hc hcp => ?_⟩
  · by_cases hipos : i = pos
    · subst hipos
      exact (le_of_before hb).congr hself hchild
    · have hi' := getElem?_swap_of_ne h hipos hne
      by_cases hpi : parent i = parent pos
      · -- the sibling
        have hsib := hr.away i hi hki hipos
        rw [hpi] at hsib ⊢
        exact ((le_of_before hb).trans hsib (Nat.lt_trans hp hpos)).congr hself hi'
      · by_cases hpi' : parent i = pos
        · rw [hpi']
          exact (hr.grand (by omega) i hi hpi').congr hchild hi'
        · exact (hr.away i hi hki hipos).congr (getElem?_swap_of_ne h hpi' hpi) hi'
  · have hpp : parent (parent pos) < parent pos := parent_lt (by omega)
    have hkpp : k ≤ parent (parent pos) := ((hr.under.parent (by omega)).parent hne).le
    have htop := hr.away (parent pos) (by omega) hkpp (by omega)
    have hpp' : (Heapq.swap h pos (parent pos))[parent (parent pos)]? = h[parent (parent pos)]? :=
      getElem?_swap_of_ne h (by omega) (by omega)
    by_cases hcpos : c = pos
    · subst hcpos
      exact htop.congr hpp' hchild
    · have hsib := hr.away c hc (hcp ▸ hkp) hcpos
      rw [hcp] at hsib
      have hclt : c ≠ parent pos := by
        have := parent_lt hc
        omega
      exact (htop.trans hsib (Nat.lt_trans hp hpos)).congr hpp' (getElem?_swap_of_ne h hcpos hclt)

theorem Rising.done {k pos : Nat} {h : List α} (hr : Rising key k pos h)
    (hstop : ¬ (k < pos ∧ before key h pos (parent pos) = true)) : OrderedFrom key k h := by
  intro i hi hki
  by_cases hpos : i = pos
  · subst hpos
    have hk : k < i := by
      have := parent_lt hi
      omega
    exact le_of_not_before (by simpa [hk] using hstop)
  · exact hr.away i hi hki hpos

theorem siftdown_ordered {k : Nat} : ∀ (n pos : Nat) (h : List α), pos ≤ n → pos < h.length →
    Rising key k pos h → OrderedFrom key k (siftdown key k n h pos)
  | 0, pos, h, hn, _, hr => hr.done (by omega)
  | n + 1, pos, h, hn, hpos, hr => by
    unfold siftdown
    split
    · rename_i hgo
      have hp : parent pos < pos := parent_lt (by omega)
      refine siftdown_ordered n (parent pos) _ (by omega) ?_ (hr.swap hgo.1 hpos hgo.2)
      rw [length_swap]
      omega
    · rename_i hstop
      exact hr.done hstop

theorem siftdown_perm {k : Nat} : ∀ (n : Nat) (h : List α) (pos : Nat), (siftdown key k n h pos).Perm h
  | 0, _, _ => .refl _
  | n + 1, h, pos => by
    unfold siftdown
    split
    · exact (siftdown_perm n _ _).trans (swap_perm _ _ _)
    · exact .refl _

/-! ## Towards a leaf -/

/-- All pairs are in order but those of `pos`, and the children of `pos` are in
order with its parent. -/
structure Sinking (key : α → κ) (k pos : Nat) (h : List α) : Prop where
  under : Under k pos
  away : ∀ i, 0 < i → k ≤ parent i → i ≠ pos → parent i ≠ pos → Le key h (parent i) i
  grand : pos ≠ k → ∀ c, 0 < c → parent c = pos → Le key h (parent pos) c

theorem child_spec (key : α → κ) {h : List α} {pos : Nat} (hpos : 2 * pos + 1 < h.length) :
    child key h pos < h.length ∧ 0 < child key h pos ∧ parent (child key h pos) = pos ∧
      ∀ i, 0 < i → parent i = pos → Le key h (child key h pos) i := by
  unfold child
  split
  · rename_i hright
    refine ⟨hright.1, by omega, by unfold parent; omega, fun i hi hp => ?_⟩
    have hle : Le key h (2 * pos + 2) (2 * pos + 1) := le_of_not_before (by simpa using hright.2)
    rcases children_of_parent hi hp with rfl | rfl
    · exact hle
    · intro a ha b hb
      cases ha.symm.trans hb
      exact le_refl _
  · rename_i hleft
    refine ⟨hpos, by omega, by unfold parent; omega, fun i hi hp => ?_⟩
    rcases children_of_parent hi hp with rfl | rfl
    · intro a ha b hb
      cases ha.symm.trans hb
      exact le_refl _
    · by_cases hlt : 2 * pos + 2 < h.length
      · exact le_of_before (by simpa [hlt] using hleft)
      · exact le_of_length_le (by omega)

/-- An entry changes places with the smaller of its children. -/
theorem Sinking.swap {k pos : Nat} {h : List α} (hs : Sinking key k pos h)
    (hpos : 2 * pos + 1 < h.length) :
    Sinking key k (child key h pos) (swap h pos (child key h pos)) := by
  obtain ⟨hlt, hc0, hcp, hmin⟩ := child_spec key hpos
  generalize child key h pos = c at hlt hc0 hcp hmin
  have hpc : pos < c := hcp ▸ parent_lt hc0
  have hself := getElem?_swap_left (Nat.lt_trans hpc hlt) hlt
  have hk := hs.under.le
  refine ⟨.child hc0 (by rw [hcp]; exact hs.under), fun i hi hki hic hpi => ?_, fun _ d hd hdp => ?_⟩
  · by_cases hipos : i = pos
    · subst hipos
      have hp := parent_lt hi
      have hgrand := hs.grand (by omega) c hc0 hcp
      exact hgrand.congr (getElem?_swap_of_ne h (by omega) (by omega)) hself
    · have hi' := getElem?_swap_of_ne h hipos hic
      by_cases hpos' : parent i = pos
      · rw [hpos']
        exact (hmin i hi hpos').congr hself hi'
      · exact (hs.away i hi hki hipos hpos').congr (getElem?_swap_of_ne h hpos' hpi) hi'
  · have hcd : c < d := hdp ▸ parent_lt hd
    have hle := hs.away d hd (by omega) (by omega) (by omega)
    rw [hdp] at hle
    rw [hcp]
    exact hle.congr hself (getElem?_swap_of_ne h (by omega) (by omega))

/-- At a leaf there is nothing below. -/
theorem Sinking.rising {k pos : Nat} {h : List α} (hs : Sinking key k pos h)
    (hleaf : h.length ≤ 2 * pos + 1) : Rising key k pos h := by
  refine ⟨hs.under, fun i hi hki hne => ?_, hs.grand⟩
  by_cases hp : parent i = pos
  · have := children_of_parent hi hp
    exact le_of_length_le (by omega)
  · exact hs.away i hi hki hne hp

theorem sink_rising {k : Nat} : ∀ (n pos : Nat) (h : List α), h.length ≤ pos + n → pos < h.length →
    Sinking key k pos h → Rising key k (sink key n h pos).2 (sink key n h pos).1 ∧
      (sink key n h pos).2 < (sink key n h pos).1.length
  | 0, pos, h, hn, hpos, _ => by omega
  | n + 1, pos, h, hn, hpos, hs => by
    unfold sink
    split
    · rename_i hin
      obtain ⟨hlt, hc0, hcp, -⟩ := child_spec key hin
      have hpc : pos < child key h pos := by
        have := parent_lt hc0
        omega
      exact sink_rising n _ _ (by rw [length_swap]; omega) (by rw [length_swap]; exact hlt) (hs.swap hin)
    · exact ⟨hs.rising (by omega), hpos⟩

theorem sink_perm : ∀ (n : Nat) (h : List α) (pos : Nat), (sink key n h pos).1.Perm h
  | 0, _, _ => .refl _
  | n + 1, h, pos => by
    unfold sink
    split
    · exact (sink_perm n _ _).trans (swap_perm _ _ _)
    · exact .refl _

theorem siftup_perm (h : List α) (pos : Nat) : (siftup key h pos).Perm h :=
  (siftdown_perm _ _ _).trans (sink_perm _ _ _)

@[simp] theorem length_siftup (h : List α) (pos : Nat) : (siftup key h pos).length = h.length :=
  (siftup_perm h pos).length_eq

/-- What is in order below the children of `pos` is in order below `pos`. -/
theorem siftup_ordered {h : List α} {pos : Nat} (hpos : pos < h.length)
    (ho : OrderedFrom key (pos + 1) h) : OrderedFrom key pos (siftup key h pos) := by
  have hs : Sinking key pos pos h :=
    ⟨.self, fun i hi hk _ hp => ho i hi (by omega), fun hne => absurd rfl hne⟩
  obtain ⟨hr, hlt⟩ := sink_rising h.length pos h (by omega) hpos hs
  exact siftdown_ordered _ _ _ (Nat.le_refl _) hlt hr

/-! ## The heap queue -/

/-- The root comes first. -/
theorem IsHeap.root_le {h : List α} (hh : IsHeap key h) (i : Nat) : Le key h 0 i := by
  induction i using Nat.strongRecOn with
  | _ i ih =>
    by_cases hi : 0 < i
    · by_cases hlt : i < h.length
      · have hp := parent_lt hi
        exact (ih _ hp).trans (hh i hi (Nat.zero_le _)) (Nat.lt_trans hp hlt)
      · exact le_of_length_le (by omega)
    · obtain rfl : i = 0 := by omega
      intro a ha b hb
      cases ha.symm.trans hb
      exact le_refl _

theorem isHeap_nil : IsHeap key ([] : List α) := fun _ _ _ => le_of_length_le (Nat.zero_le _)

theorem heappush_perm (h : List α) (x : α) : (heappush key h x).Perm (x :: h) :=
  (siftdown_perm _ _ _).trans (List.perm_append_singleton x h)

theorem heappush_isHeap {h : List α} (hh : IsHeap key h) (x : α) : IsHeap key (heappush key h x) := by
  have under : ∀ i, Under 0 i := by
    intro i
    induction i using Nat.strongRecOn with
    | _ i ih =>
      by_cases hi : 0 < i
      · exact .child hi (ih _ (parent_lt hi))
      · obtain rfl : i = 0 := by omega
        exact .self
  refine siftdown_ordered h.length h.length _ (Nat.le_refl _) (by simp) ⟨under _, ?_, ?_⟩
  · intro i hi _ hne
    by_cases hlt : i < h.length
    · have hp := parent_lt hi
      exact (hh i hi (Nat.zero_le _)).congr (List.getElem?_append_left (by omega))
        (List.getElem?_append_left hlt)
    · exact le_of_length_le (by simp; omega)
  · intro _ c hc hp
    have := parent_lt hc
    exact le_of_length_le (by simp; omega)

theorem heappop_perm {h h' : List α} {x : α} (hpop : heappop key h = some (x, h')) :
    h.Perm (x :: h') := by
  rcases List.eq_nil_or_concat h with rfl | ⟨l, last, rfl⟩
  · cases hpop
  · simp only [heappop, List.concat_eq_append, List.getLast?_concat, List.dropLast_concat] at hpop
    rw [List.concat_eq_append]
    rcases l with _ | ⟨first, rest⟩
    · cases hpop
      exact .refl _
    · obtain ⟨rfl, rfl⟩ : first = x ∧ siftup key (last :: rest) 0 = h' := by simpa using hpop
      exact ((List.perm_append_singleton last rest).trans (siftup_perm _ _).symm).cons first

theorem heappop_isHeap {h h' : List α} {x : α} (hh : IsHeap key h)
    (hpop : heappop key h = some (x, h')) : IsHeap key h' := by
  rcases List.eq_nil_or_concat h with rfl | ⟨l, last, rfl⟩
  · cases hpop
  · simp only [heappop, List.concat_eq_append, List.getLast?_concat, List.dropLast_concat] at hpop
    rcases l with _ | ⟨first, rest⟩
    · cases hpop
      exact isHeap_nil
    · obtain ⟨rfl, rfl⟩ : first = x ∧ siftup key (last :: rest) 0 = h' := by simpa using hpop
      refine siftup_ordered (by simp) fun i hi hk => ?_
      -- only the root was written, and the last entry dropped
      by_cases hlt : i < rest.length + 1
      · have hp := parent_lt hi
        have hsame : ∀ j, 0 < j → j < rest.length + 1 →
            (last :: rest)[j]? = ((first :: rest).concat last)[j]? := by
          intro j hj hjl
          obtain ⟨j, rfl⟩ : ∃ m, j = m + 1 := ⟨j - 1, by omega⟩
          rw [List.concat_eq_append, List.cons_append, List.getElem?_cons_succ, List.getElem?_cons_succ,
            List.getElem?_append_left (by omega)]
        exact (hh i hi (Nat.zero_le _)).congr (hsame _ (by omega) (by omega)) (hsame i hi hlt)
      · exact le_of_length_le (by simp; omega)

/-- **What is popped comes first.** -/
theorem heappop_le {h h' : List α} {x : α} (hh : IsHeap key h) (hpop : heappop key h = some (x, h')) :
    ∀ y ∈ h, key x ≤ key y := by
  intro y hy
  obtain ⟨i, hi⟩ := List.mem_iff_getElem?.mp hy
  have hx : h[0]? = some x := by
    rcases List.eq_nil_or_concat h with rfl | ⟨l, last, rfl⟩
    · cases hpop
    · simp only [heappop, List.concat_eq_append, List.getLast?_concat, List.dropLast_concat] at hpop
      rcases l with _ | ⟨first, rest⟩
      · cases hpop
        rfl
      · obtain ⟨rfl, -⟩ : first = x ∧ siftup key (last :: rest) 0 = h' := by simpa using hpop
        rfl
  exact hh.root_le i x hx y hi

theorem foldr_siftup : ∀ (m : Nat) (h : List α), m ≤ h.length → OrderedFrom key m h →
    IsHeap key ((List.range m).foldr (fun i h => siftup key h i) h) ∧
      ((List.range m).foldr (fun i h => siftup key h i) h).Perm h
  | 0, h, _, ho => ⟨ho, .refl _⟩
  | m + 1, h, hm, ho => by
    rw [List.range_succ, List.foldr_append]
    obtain ⟨h1, h2⟩ := foldr_siftup m (siftup key h m) (by rw [length_siftup]; omega)
      (siftup_ordered (by omega) ho)
    exact ⟨h1, h2.trans (siftup_perm h m)⟩

/-- The second half of a list has no children. -/
theorem orderedFrom_half (h : List α) : OrderedFrom key (h.length / 2) h := by
  intro i hi hk
  refine le_of_length_le ?_
  unfold parent at hk
  omega

/-- An entry is overwritten with the last one, and the last one dropped. -/
theorem overwrite_perm {h : List α} {i : Nat} {a last : α} (hi : h[i]? = some a)
    (hlast : h.getLast? = some last) : h.Perm (a :: (h.set i last).dropLast) := by
  obtain ⟨l, rfl⟩ := List.getLast?_eq_some_iff.mp hlast
  by_cases hil : i < l.length
  · obtain ⟨-, rfl⟩ := List.getElem?_eq_some_iff.mp (List.getElem?_append_left hil ▸ hi)
    rw [List.set_append_left _ _ hil, List.dropLast_concat]
    have hset : (last :: l.eraseIdx i).Perm (l.set i last) := (List.set_perm_cons_eraseIdx hil last).symm
    have hl : (l[i] :: l.eraseIdx i).Perm l := List.getElem_cons_eraseIdx_perm hil
    calc (l ++ [last]).Perm (last :: l) := List.perm_append_singleton last l
      List.Perm _ (last :: l[i] :: l.eraseIdx i) := hl.symm.cons last
      List.Perm _ (l[i] :: last :: l.eraseIdx i) := .swap _ _ _
      List.Perm _ (l[i] :: l.set i last) := hset.cons _
  · have hlt : i < (l ++ [last]).length := (List.getElem?_eq_some_iff.mp hi).1
    obtain rfl : i = l.length := by
      rw [List.length_append, List.length_singleton] at hlt
      omega
    rw [List.getElem?_concat_length] at hi
    cases hi
    rw [List.set_append_right _ _ (Nat.le_refl _), Nat.sub_self, List.set_cons_zero, List.dropLast_concat]
    exact List.perm_append_singleton a l

theorem heapify_isHeap (h : List α) : IsHeap key (heapify key h) :=
  (foldr_siftup _ h (by omega) (orderedFrom_half h)).1

theorem heapify_perm (h : List α) : (heapify key h).Perm h :=
  (foldr_siftup _ h (by omega) (orderedFrom_half h)).2

end Catkit2.Heapq
