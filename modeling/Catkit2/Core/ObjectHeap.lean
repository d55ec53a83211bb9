import Mathlib.Data.List.Nodup

/-!
# Dictionaries and lists that can be held at two places

Objects of an interpreted program. Dictionaries and lists live on a heap and have
an identity: whoever holds one holds its address, and a change of it is seen
wherever it is held. Everything else is a value.

A path leads from an object into the containers it holds. `value` is what can be
seen of an object along every path, `setting` the value that is no dictionary
at a path of keys.

* `Agree`: heaps that differ only in what an object does not reach; nothing that
  can be seen of the object differs.
* `Unshared`, `Separate`: nothing is held twice, nothing by both.
* `find_put`, `getElem?_store_self`: what `dict[key] = value` leaves to be found.
* `walk_load`: a heap that is put behind another keeps what can be seen.
-/
namespace Catkit2.ObjectHeap

inductive Obj (α : Type*) where
  | scalar (a : α)
  | ref (addr : Nat)
  deriving DecidableEq

inductive Container (κ α : Type*) where
  /-- In insertion order. -/
  | dict (items : List (κ × Obj α))
  | list (items : List (Obj α))
  deriving DecidableEq

abbrev Heap (κ α : Type*) := List (Container κ α)

/-- A step into a container. -/
inductive Step (κ : Type*) where
  | key (k : κ)
  | index (i : Nat)
  deriving DecidableEq

variable {κ α : Type*} [DecidableEq κ]

/-! ## Items -/

/-- `dict.get(key)` -/
def find (key : κ) : List (κ × Obj α) → Option (Obj α)
  | [] => none
  | e :: items => if e.1 = key then some e.2 else find key items

/-- `dict[key] = value`: a key that is there keeps its place. -/
def put (key : κ) (value : Obj α) : List (κ × Obj α) → List (κ × Obj α)
  | [] => [(key, value)]
  | e :: items => if e.1 = key then (key, value) :: items else e :: put key value items

theorem find_put (key k : κ) (value : Obj α) (items : List (κ × Obj α)) :
    find k (put key value items) = if key = k then some value else find k items := by
  induction items with
  | nil => rfl
  | cons e items ih =>
    simp only [put]
    by_cases he : e.1 = key
    · rw [if_pos he]
      simp only [find, he]
      split <;> rfl
    · rw [if_neg he]
      simp only [find]
      by_cases hk : e.1 = k
      · rw [if_pos hk, if_pos hk, if_neg fun h => he (hk.trans h.symm)]
      · rw [if_neg hk, if_neg hk, ih]

theorem put_find {key : κ} {value : Obj α} {items : List (κ × Obj α)} (h : find key items = some value) :
    put key value items = items := by
  induction items with
  | nil => cases h
  | cons e items ih =>
    rw [find] at h
    rw [put]
    split
    · rename_i he
      rw [if_pos he] at h
      cases h
      rw [← he]
    · rename_i he
      rw [if_neg he] at h
      rw [ih h]

theorem find_singleton {k j : κ} {x y : Obj α} : find k [(j, x)] = some y ↔ j = k ∧ x = y := by
  rw [find]
  split <;> simp_all [find]

theorem mem_of_find {k : κ} {value : Obj α} {items : List (κ × Obj α)}
    (h : find k items = some value) : (k, value) ∈ items := by
  induction items with
  | nil => cases h
  | cons e items ih =>
    rw [find] at h
    split at h
    · rename_i he
      cases h
      exact he ▸ List.mem_cons_self
    · exact List.mem_cons_of_mem _ (ih h)

theorem find_of_mem {k : κ} {items : List (κ × Obj α)} (h : k ∈ items.map Prod.fst) :
    ∃ value, find k items = some value := by
  induction items with
  | nil => cases h
  | cons e items ih =>
    rw [find]
    split
    · exact ⟨e.2, rfl⟩
    · rename_i he
      refine ih ((List.mem_cons.mp h).resolve_left fun hk => he hk.symm)

theorem keys_put (key : κ) (value : Obj α) (items : List (κ × Obj α)) :
    (put key value items).map Prod.fst =
      if key ∈ items.map Prod.fst then items.map Prod.fst else items.map Prod.fst ++ [key] := by
  induction items with
  | nil => rfl
  | cons e items ih =>
    rw [put]
    by_cases he : e.1 = key
    · rw [if_pos he, if_pos (by simp [he])]
      simp [he]
    · rw [if_neg he, List.map_cons, ih, List.map_cons]
      have hmem : key ∈ e.1 :: items.map Prod.fst ↔ key ∈ items.map Prod.fst :=
        ⟨fun h => (List.mem_cons.mp h).resolve_left fun hk => he hk.symm, List.mem_cons_of_mem _⟩
      simp only [hmem]
      split <;> rfl

theorem nodup_keys_put {items : List (κ × Obj α)} (h : (items.map Prod.fst).Nodup) (key : κ)
    (value : Obj α) : ((put key value items).map Prod.fst).Nodup := by
  rw [keys_put]
  split
  · exact h
  · rename_i hk
    exact h.append (List.nodup_singleton _) (by simpa using hk)

theorem mem_values_put {key : κ} {value x : Obj α} {items : List (κ × Obj α)}
    (h : x ∈ (put key value items).map Prod.snd) : x = value ∨ x ∈ items.map Prod.snd := by
  induction items with
  | nil => exact .inl (List.mem_singleton.mp h)
  | cons e items ih =>
    rw [put] at h
    split at h
    · rcases List.mem_cons.mp h with rfl | h
      · exact .inl rfl
      · exact .inr (List.mem_cons_of_mem _ h)
    · rcases List.mem_cons.mp h with rfl | h
      · exact .inr List.mem_cons_self
      · exact (ih h).imp_right (List.mem_cons_of_mem _)

/-! ## Paths -/

def Container.child : Container κ α → Step κ → Option (Obj α)
  | .dict items, .key k => find k items
  | .list items, .index i => items[i]?
  | _, _ => none

/-- What the container holds. -/
def Container.objects : Container κ α → List (Obj α)
  | .dict items => items.map Prod.snd
  | .list items => items

/-- The keys of a dictionary. -/
def Container.keys : Container κ α → List κ
  | .dict items => items.map Prod.fst
  | .list _ => []

theorem Container.mem_objects {c : Container κ α} {s : Step κ} {x : Obj α} (h : c.child s = some x) :
    x ∈ c.objects := by
  cases c with
  | dict items =>
    cases s with
    | key k => exact List.mem_map.mpr ⟨(k, x), mem_of_find h, rfl⟩
    | index i => cases h
  | list items =>
    cases s with
    | key k => cases h
    | index i => exact List.mem_of_getElem? h

/-- The object at a path. -/
def walk (H : Heap κ α) : Obj α → List (Step κ) → Option (Obj α)
  | x, [] => some x
  | .scalar _, _ :: _ => none
  | .ref a, s :: path => H[a]?.bind fun c => (c.child s).bind fun x => walk H x path

def Reaches (H : Heap κ α) (x : Obj α) (a : Nat) : Prop := ∃ path, walk H x path = some (.ref a)

/-- The items of an object that is a dictionary. -/
def items (H : Heap κ α) : Obj α → Option (List (κ × Obj α))
  | .scalar _ => none
  | .ref a => H[a]?.bind fun
    | .dict items => some items
    | .list _ => none

/-- `isinstance(x, Mapping)` -/
def isMapping (H : Heap κ α) (x : Obj α) : Bool := (items H x).isSome

/-- What an object is by itself. -/
inductive Shape (κ α : Type*) where
  | scalar (a : α)
  | dict (keys : List κ)
  | list (length : Nat)

def shape (H : Heap κ α) : Obj α → Option (Shape κ α)
  | .scalar a => some (.scalar a)
  | .ref a => H[a]?.map fun
    | .dict items => .dict (items.map Prod.fst)
    | .list items => .list items.length

/-- What can be seen of an object: what is at each path. -/
def value (H : Heap κ α) (x : Obj α) (path : List (Step κ)) : Option (Shape κ α) :=
  (walk H x path).bind (shape H)

/-- The value at a path of keys that is no dictionary. -/
def setting (H : Heap κ α) (x : Obj α) (path : List κ) : Option (List (Step κ) → Option (Shape κ α)) :=
  (walk H x (path.map .key)).bind fun y => if isMapping H y then none else some (value H y)

/-- Something is at the path, or what is at an ancestor of it is no dictionary. -/
def touches (H : Heap κ α) (x : Obj α) : List κ → Bool
  | [] => true
  | key :: path =>
    match items H x with
    | none => true
    | some items => (find key items).any fun y => touches H y path

theorem walk_append (H : Heap κ α) (x : Obj α) (p q : List (Step κ)) :
    walk H x (p ++ q) = (walk H x p).bind fun y => walk H y q := by
  induction p generalizing x with
  | nil => rfl
  | cons s p ih =>
    cases x with
    | scalar a => rfl
    | ref a => simp only [List.cons_append, walk, Option.bind_assoc, ih]

theorem Reaches.self (H : Heap κ α) (a : Nat) : Reaches H (.ref a) a := ⟨[], rfl⟩

theorem Reaches.trans {H : Heap κ α} {x y : Obj α} {path : List (Step κ)} {a : Nat}
    (hy : walk H x path = some y) (h : Reaches H y a) : Reaches H x a := by
  obtain ⟨q, hq⟩ := h
  exact ⟨path ++ q, by rw [walk_append, hy, Option.bind_some, hq]⟩

theorem not_reaches_scalar (H : Heap κ α) (v : α) (a : Nat) : ¬ Reaches H (.scalar v) a := by
  rintro ⟨path, hpath⟩
  cases path <;> cases hpath

omit [DecidableEq κ] in
theorem items_eq_some {H : Heap κ α} {x : Obj α} {es : List (κ × Obj α)} :
    items H x = some es ↔ ∃ a, x = .ref a ∧ H[a]? = some (.dict es) := by
  cases x with
  | scalar a => simp [items]
  | ref a =>
    simp only [items, Obj.ref.injEq, exists_eq_left']
    cases H[a]? with
    | none => simp
    | some c => cases c <;> simp

omit [DecidableEq κ] in
theorem isMapping_eq_true {H : Heap κ α} {x : Obj α} :
    isMapping H x = true ↔ ∃ es, items H x = some es := Option.isSome_iff_exists

theorem walk_key {H : Heap κ α} {x : Obj α} {es : List (κ × Obj α)} (h : items H x = some es) (k : κ)
    (path : List (Step κ)) :
    walk H x (.key k :: path) = (find k es).bind fun y => walk H y path := by
  obtain ⟨a, rfl, ha⟩ := items_eq_some.mp h
  rw [walk, ha]
  rfl

theorem walk_of_find {H : Heap κ α} {x y : Obj α} {es : List (κ × Obj α)} (hx : items H x = some es) {k : κ}
    (hy : find k es = some y) : walk H x [.key k] = some y := by
  rw [walk_key hx, hy, Option.bind_some, walk]

theorem reaches_of_find {H : Heap κ α} {x c : Obj α} {es : List (κ × Obj α)} (hx : items H x = some es)
    {k : κ} (hc : find k es = some c) {a : Nat} (h : Reaches H c a) : Reaches H x a :=
  h.trans (walk_of_find hx hc)

/-- A path into a dictionary ends there or goes on under a key. -/
theorem walk_dict_cases {H : Heap κ α} {o : Nat} {es : List (κ × Obj α)} (ho : items H (.ref o) = some es)
    {path : List (Step κ)} {y : Obj α} (h : walk H (.ref o) path = some y) : (path = [] ∧ y = .ref o) ∨
      ∃ k c rest, path = .key k :: rest ∧ find k es = some c ∧ walk H c rest = some y := by
  cases path with
  | nil =>
    cases h
    exact .inl ⟨rfl, rfl⟩
  | cons s rest =>
    cases s with
    | key k =>
      rw [walk_key ho] at h
      obtain ⟨c, hc, h⟩ := Option.bind_eq_some_iff.mp h
      exact .inr ⟨k, c, rest, rfl, hc, h⟩
    | index i =>
      obtain ⟨b, hb, hget⟩ := items_eq_some.mp ho
      cases hb
      rw [walk, hget] at h
      cases h

theorem reaches_dict {H : Heap κ α} {o : Nat} {es : List (κ × Obj α)} (ho : items H (.ref o) = some es)
    {a : Nat} (h : Reaches H (.ref o) a) : a = o ∨ ∃ k y, find k es = some y ∧ Reaches H y a := by
  obtain ⟨path, hpath⟩ := h
  rcases walk_dict_cases ho hpath with ⟨-, hy⟩ | ⟨k, c, rest, -, hc, hrest⟩
  · cases hy
    exact .inl rfl
  · exact .inr ⟨k, c, hc, rest, hrest⟩

theorem walk_key_of_not_mapping {H : Heap κ α} {x : Obj α} (h : isMapping H x = false) (k : κ)
    (path : List (Step κ)) : walk H x (.key k :: path) = none := by
  cases x with
  | scalar a => rfl
  | ref a =>
    rw [walk]
    cases hc : H[a]? with
    | none => rfl
    | some c =>
      cases c with
      | dict es => simp [isMapping, items, hc] at h
      | list xs => rfl

/-! ## Settings -/

theorem setting_nil {H : Heap κ α} {x : Obj α} (h : isMapping H x = true) : setting H x [] = none := by
  simp [setting, walk, h]

theorem setting_cons {H : Heap κ α} {x : Obj α} {es : List (κ × Obj α)} (h : items H x = some es) (k : κ)
    (path : List κ) : setting H x (k :: path) = (find k es).bind fun y => setting H y path := by
  unfold setting
  rw [List.map_cons, walk_key h, Option.bind_assoc]

theorem setting_cons_of_not_mapping {H : Heap κ α} {x : Obj α} (h : isMapping H x = false) (k : κ)
    (path : List κ) : setting H x (k :: path) = none := by
  unfold setting
  rw [List.map_cons, walk_key_of_not_mapping h]
  rfl

theorem touches_cons {H : Heap κ α} {x : Obj α} {es : List (κ × Obj α)} (h : items H x = some es) (k : κ)
    (path : List κ) : touches H x (k :: path) = (find k es).any fun y => touches H y path := by
  rw [touches, h]

theorem touches_of_not_mapping {H : Heap κ α} {x : Obj α} (h : isMapping H x = false) (path : List κ) :
    touches H x path = true := by
  cases path with
  | nil => rfl
  | cons k path =>
    rw [touches]
    rw [isMapping, Option.isSome_eq_false_iff, Option.isNone_iff_eq_none] at h
    rw [h]

theorem value_of_setting {H : Heap κ α} {x : Obj α} {path : List κ} {v : List (Step κ) → Option (Shape κ α)}
    (h : setting H x path = some v) : value H x (path.map .key) = v [] := by
  obtain ⟨y, hy, hv⟩ := Option.bind_eq_some_iff.mp h
  split at hv
  · cases hv
  · cases hv
    simp only [value, hy, walk, Option.bind_some]

theorem setting_of_scalar {H : Heap κ α} {x : Obj α} {path : List κ} {a : α}
    (h : value H x (path.map .key) = some (.scalar a)) :
    ∃ v, setting H x path = some v ∧ v [] = some (.scalar a) := by
  obtain ⟨y, hy, hs⟩ := Option.bind_eq_some_iff.mp h
  refine ⟨value H y, ?_, hs⟩
  have hmap : isMapping H y = false := by
    cases y with
    | scalar b => rfl
    | ref b =>
      obtain ⟨c, hc, hs⟩ := Option.map_eq_some_iff.mp hs
      cases c <;> cases hs
  rw [setting, hy, Option.bind_some, hmap]
  rfl

/-- What has a setting at a path touches it. -/
theorem touches_of_setting {H : Heap κ α} {x : Obj α} {path : List κ}
    {v : List (Step κ) → Option (Shape κ α)} (h : setting H x path = some v) :
    touches H x path = true := by
  induction path generalizing x with
  | nil => rfl
  | cons k path ih =>
    cases hx : items H x with
    | none => exact touches_of_not_mapping (by simp [isMapping, hx]) _
    | some es =>
      rw [setting_cons hx] at h
      obtain ⟨y, hy, hv⟩ := Option.bind_eq_some_iff.mp h
      rw [touches_cons hx, hy, Option.any_some]
      exact ih hv

/-! ## Heaps that agree -/

/-- The heaps hold the same in all that `x` reaches. -/
def Agree (H H' : Heap κ α) (x : Obj α) : Prop := ∀ a, Reaches H x a → H'[a]? = H[a]?

namespace Agree

variable {H H' : Heap κ α} {x : Obj α}

theorem after (h : Agree H H' x) {path : List (Step κ)} {y : Obj α} (hy : walk H x path = some y) :
    Agree H H' y := fun a ha => h a (ha.trans hy)

theorem walk (h : Agree H H' x) (path : List (Step κ)) : walk H' x path = ObjectHeap.walk H x path := by
  induction path generalizing x with
  | nil => cases x <;> rfl
  | cons s path ih =>
    cases x with
    | scalar a => rfl
    | ref a =>
      simp only [ObjectHeap.walk, h a (.self H a)]
      refine Option.bind_congr fun c hc => Option.bind_congr fun y hy => ?_
      have hs : ObjectHeap.walk H (.ref a) [s] = some y := by
        simp only [ObjectHeap.walk, hc, hy, Option.bind_some]
      exact ih (h.after hs)

theorem reaches (h : Agree H H' x) (a : Nat) : Reaches H' x a ↔ Reaches H x a := by
  simp only [Reaches, h.walk]

theorem symm (h : Agree H H' x) : Agree H' H x := fun a ha => (h a ((h.reaches a).mp ha)).symm

theorem items (h : Agree H H' x) : items H' x = ObjectHeap.items H x := by
  cases x with
  | scalar a => rfl
  | ref a => rw [ObjectHeap.items, h a (.self H a), ObjectHeap.items]

theorem isMapping (h : Agree H H' x) : isMapping H' x = ObjectHeap.isMapping H x := by
  rw [ObjectHeap.isMapping, h.items, ObjectHeap.isMapping]

theorem shape (h : Agree H H' x) : shape H' x = ObjectHeap.shape H x := by
  cases x with
  | scalar a => rfl
  | ref a => rw [ObjectHeap.shape, h a (.self H a), ObjectHeap.shape]

theorem value (h : Agree H H' x) : value H' x = ObjectHeap.value H x := by
  funext path
  simp only [ObjectHeap.value, h.walk]
  exact Option.bind_congr fun y hy => (h.after hy).shape

theorem setting (h : Agree H H' x) (path : List κ) : setting H' x path = ObjectHeap.setting H x path := by
  simp only [ObjectHeap.setting, h.walk]
  exact Option.bind_congr fun y hy => by rw [(h.after hy).isMapping, (h.after hy).value]

theorem touches (h : Agree H H' x) (path : List κ) : touches H' x path = ObjectHeap.touches H x path := by
  induction path generalizing x with
  | nil => rfl
  | cons k path ih =>
    cases hx : ObjectHeap.items H x with
    | none => simp only [ObjectHeap.touches, h.items, hx]
    | some es =>
      rw [touches_cons (h.items.trans hx), touches_cons hx]
      cases hk : find k es with
      | none => rfl
      | some y =>
        simp only [Option.any_some]
        exact ih (h.after (walk_of_find hx hk))

end Agree

/-! ## Nothing held twice -/

/-- No container is at two paths. -/
def Unshared (H : Heap κ α) (x : Obj α) : Prop :=
  ∀ p q a, walk H x p = some (.ref a) → walk H x q = some (.ref a) → p = q

/-- No container is reached by both. -/
def Separate (H : Heap κ α) (x y : Obj α) : Prop := ∀ a, Reaches H x a → ¬ Reaches H y a

theorem Separate.symm {H : Heap κ α} {x y : Obj α} (h : Separate H x y) : Separate H y x :=
  fun a hy hx => h a hx hy

theorem Agree.unshared {H H' : Heap κ α} {x : Obj α} (h : Agree H H' x) :
    Unshared H' x ↔ Unshared H x := by
  simp only [Unshared, h.walk]

theorem Agree.separate {H H' : Heap κ α} {x y : Obj α} (hx : Agree H H' x) (hy : Agree H H' y) :
    Separate H' x y ↔ Separate H x y := by
  simp only [Separate, hx.reaches, hy.reaches]

section Unshared

variable {H : Heap κ α} {x : Obj α} {es : List (κ × Obj α)}

theorem Unshared.child (h : Unshared H x) (hx : items H x = some es) {k : κ} {c : Obj α}
    (hc : find k es = some c) : Unshared H c := by
  intro p q a hp hq
  have hkey : ∀ path, walk H x (.key k :: path) = walk H c path := fun path => by
    rw [walk_key hx, hc, Option.bind_some]
  exact (List.cons.inj (h (.key k :: p) (.key k :: q) a ((hkey p).trans hp) ((hkey q).trans hq))).2

theorem Unshared.separate (h : Unshared H x) (hx : items H x = some es) {k j : κ} (hkj : k ≠ j)
    {c d : Obj α} (hc : find k es = some c) (hd : find j es = some d) : Separate H c d := by
  rintro a ⟨p, hp⟩ ⟨q, hq⟩
  have hpq := h (.key k :: p) (.key j :: q) a (by rw [walk_key hx, hc, Option.bind_some, hp])
    (by rw [walk_key hx, hd, Option.bind_some, hq])
  exact hkj (Step.key.inj (List.cons.inj hpq).1)

theorem Unshared.ne_of_reaches {o : Nat} (h : Unshared H (.ref o)) (ho : items H (.ref o) = some es) {k : κ}
    {c : Obj α} (hc : find k es = some c) {a : Nat} (ha : Reaches H c a) : a ≠ o := by
  rintro rfl
  obtain ⟨p, hp⟩ := ha
  have hpath := h (.key k :: p) [] a (by rw [walk_key ho, hc, Option.bind_some, hp]) rfl
  cases hpath

/-- A dictionary holds nothing twice if what it holds does not, nor two of its items. -/
theorem unshared_dict {o : Nat} (ho : items H (.ref o) = some es)
    (hitem : ∀ k c, find k es = some c → Unshared H c)
    (hself : ∀ k c, find k es = some c → ∀ a, Reaches H c a → a ≠ o)
    (hitems : ∀ k j c d, k ≠ j → find k es = some c → find j es = some d → Separate H c d) :
    Unshared H (.ref o) := by
  intro p q a hp hq
  rcases walk_dict_cases ho hp with ⟨rfl, ha⟩ | ⟨k, c, p, rfl, hc, hp'⟩
  · rcases walk_dict_cases ho hq with ⟨rfl, -⟩ | ⟨j, d, q, rfl, hd, hq'⟩
    · rfl
    · exact absurd (Obj.ref.inj ha) (hself j d hd a ⟨q, hq'⟩)
  · rcases walk_dict_cases ho hq with ⟨rfl, ha⟩ | ⟨j, d, q, rfl, hd, hq'⟩
    · exact absurd (Obj.ref.inj ha) (hself k c hc a ⟨p, hp'⟩)
    · by_cases hkj : k = j
      · subst hkj
        obtain rfl : c = d := Option.some.inj (hc.symm.trans hd)
        rw [hitem k c hc p q a hp' hq']
      · exact absurd ⟨q, hq'⟩ (hitems k j c d hkj hc hd a ⟨p, hp'⟩)

end Unshared

/-! ## Heaps without dangling addresses -/

/-- The object is a value or at an address below `n`. -/
def Obj.On (n : Nat) : Obj α → Prop
  | .scalar _ => True
  | .ref a => a < n

instance (n : Nat) (x : Obj α) : Decidable (x.On n) :=
  match x with
  | .scalar _ => isTrue trivial
  | .ref a => Nat.decLt a n

/-- What the container holds is below `n`, and no key is there twice. -/
structure Container.Sound (n : Nat) (c : Container κ α) : Prop where
  objects : ∀ x ∈ c.objects, x.On n
  keys : c.keys.Nodup

instance (n : Nat) (c : Container κ α) : Decidable (c.Sound n) :=
  decidable_of_iff ((∀ x ∈ c.objects, x.On n) ∧ c.keys.Nodup) ⟨fun h => ⟨h.1, h.2⟩, fun h => ⟨h.1, h.2⟩⟩

def Valid (H : Heap κ α) : Prop := ∀ c ∈ H, c.Sound H.length

instance (H : Heap κ α) : Decidable (Valid H) := inferInstanceAs (Decidable (∀ c ∈ H, c.Sound H.length))

theorem Obj.On.mono {x : Obj α} {m n : Nat} (hx : x.On m) (h : m ≤ n) : x.On n := by
  cases x with
  | scalar a => trivial
  | ref a => exact Nat.lt_of_lt_of_le hx h

omit [DecidableEq κ] in
theorem Container.Sound.mono {m n : Nat} {c : Container κ α} (h : c.Sound m) (hmn : m ≤ n) : c.Sound n :=
  ⟨fun x hx => (h.objects x hx).mono hmn, h.keys⟩

namespace Valid

variable {H : Heap κ α}

omit [DecidableEq κ] in
theorem sound (h : Valid H) {a : Nat} {c : Container κ α} (hc : H[a]? = some c) : c.Sound H.length :=
  h c (List.mem_of_getElem? hc)

omit [DecidableEq κ] in
theorem nodup_keys (h : Valid H) {x : Obj α} {es : List (κ × Obj α)} (hx : items H x = some es) :
    (es.map Prod.fst).Nodup := by
  obtain ⟨a, -, ha⟩ := items_eq_some.mp hx
  exact (h.sound ha).keys

theorem find_on (h : Valid H) {x y : Obj α} {es : List (κ × Obj α)} (hx : items H x = some es) {k : κ}
    (hy : find k es = some y) : y.On H.length := by
  obtain ⟨a, -, ha⟩ := items_eq_some.mp hx
  exact (h.sound ha).objects y (Container.mem_objects (s := .key k) hy)

theorem reaches_lt (h : Valid H) {x : Obj α} (hx : x.On H.length) {a : Nat} (ha : Reaches H x a) :
    a < H.length := by
  obtain ⟨path, hpath⟩ := ha
  induction path generalizing x with
  | nil =>
    cases hpath
    exact hx
  | cons s path ih =>
    cases x with
    | scalar b => cases hpath
    | ref b =>
      obtain ⟨c, hc, hpath⟩ := Option.bind_eq_some_iff.mp hpath
      obtain ⟨y, hy, hpath⟩ := Option.bind_eq_some_iff.mp hpath
      exact ih ((h.sound hc).objects y (Container.mem_objects hy)) hpath

theorem agree (h : Valid H) {H' : Heap κ α} {x : Obj α} (hx : x.On H.length)
    (hsame : ∀ a < H.length, H'[a]? = H[a]?) : Agree H H' x := fun a ha => hsame a (h.reaches_lt hx ha)

end Valid

/-! ## Writing -/

/-- `dict[key] = value` -/
def store (H : Heap κ α) (x : Obj α) (key : κ) (value : Obj α) : Heap κ α :=
  match x with
  | .scalar _ => H
  | .ref a => H.set a (.dict (put key value ((items H x).getD [])))

/-- A new dictionary. -/
def newDict (H : Heap κ α) : Heap κ α × Obj α := (H ++ [.dict []], .ref H.length)

section Store

variable {H : Heap κ α} {a : Nat} {es : List (κ × Obj α)}

theorem length_store (x : Obj α) (key : κ) (value : Obj α) : (store H x key value).length = H.length := by
  cases x with
  | scalar b => rfl
  | ref b => exact List.length_set

theorem getElem?_store_of_ne {b : Nat} (hb : b ≠ a) (key : κ) (value : Obj α) :
    (store H (.ref a) key value)[b]? = H[b]? := by
  simp only [store]
  exact List.getElem?_set_ne (Ne.symm hb)

theorem store_eq (h : H[a]? = some (.dict es)) (key : κ) (value : Obj α) :
    store H (.ref a) key value = H.set a (.dict (put key value es)) := by
  simp only [store, items, h, Option.bind_some, Option.getD_some]

/-- Storing what is there. -/
theorem store_find (h : H[a]? = some (.dict es)) {key : κ} {value : Obj α} (hv : find key es = some value) :
    store H (.ref a) key value = H := by
  obtain ⟨ha, hget⟩ := List.getElem?_eq_some_iff.mp h
  rw [store_eq h, put_find hv, ← hget, List.set_getElem_self]

theorem getElem?_store_self (h : H[a]? = some (.dict es)) (key : κ) (value : Obj α) :
    (store H (.ref a) key value)[a]? = some (.dict (put key value es)) := by
  obtain ⟨ha, -⟩ := List.getElem?_eq_some_iff.mp h
  rw [store_eq h, List.getElem?_set_self ha]

theorem valid_store (hH : Valid H) (h : H[a]? = some (.dict es)) (key : κ) {value : Obj α}
    (hvalue : value.On H.length) : Valid (store H (.ref a) key value) := by
  intro c hc
  rw [length_store]
  rw [store_eq h] at hc
  rcases List.mem_or_eq_of_mem_set hc with hc | rfl
  · exact hH c hc
  · refine ⟨fun x hx => ?_, nodup_keys_put (hH.sound h).keys key value⟩
    rcases mem_values_put hx with rfl | hx
    · exact hvalue
    · exact (hH.sound h).objects x hx

omit [DecidableEq κ] in
theorem valid_newDict (hH : Valid H) : Valid (newDict H).1 := by
  intro c hc
  rcases List.mem_append.mp hc with hc | hc
  · exact (hH c hc).mono (by simp [newDict])
  · rw [List.mem_singleton.mp hc]
    exact ⟨fun x hx => absurd hx List.not_mem_nil, List.nodup_nil⟩

/-- Nothing is held by a new dictionary, which nothing holds. -/
theorem walk_newDict (path : List (Step κ)) :
    walk (newDict H).1 (newDict H).2 path = if path = [] then some (newDict H).2 else none := by
  cases path with
  | nil => rfl
  | cons s path =>
    rw [if_neg (List.cons_ne_nil _ _), newDict, walk, List.getElem?_append_right (Nat.le_refl _),
      Nat.sub_self]
    cases s <;> rfl

omit [DecidableEq κ] in
theorem items_newDict : items (newDict H).1 (newDict H).2 = some [] := by
  rw [newDict, items, List.getElem?_append_right (Nat.le_refl _), Nat.sub_self]
  rfl

omit [DecidableEq κ] in
theorem getElem?_newDict {b : Nat} (hb : b < H.length) : (newDict H).1[b]? = H[b]? :=
  List.getElem?_append_left hb

theorem reaches_newDict {b : Nat} (h : Reaches (newDict H).1 (newDict H).2 b) : b = H.length := by
  obtain ⟨path, hpath⟩ := h
  rw [walk_newDict] at hpath
  split at hpath
  · cases hpath
    rfl
  · cases hpath

theorem setting_newDict (path : List κ) : setting (newDict H).1 (newDict H).2 path = none := by
  cases path with
  | nil => exact setting_nil (isMapping_eq_true.mpr ⟨[], items_newDict⟩)
  | cons k path =>
    rw [setting_cons items_newDict]
    rfl

theorem unshared_newDict : Unshared (newDict H).1 (newDict H).2 := by
  intro p q b hp hq
  rw [walk_newDict] at hp hq
  split at hp
  · rename_i hp'
    split at hq
    · rename_i hq'
      rw [hp', hq']
    · cases hq
  · cases hp

theorem separate_newDict (hH : Valid H) {x : Obj α} (hx : x.On H.length) :
    Separate (newDict H).1 (newDict H).2 x := by
  intro b hb hr
  have hagree : Agree H (newDict H).1 x := hH.agree hx fun c hc => getElem?_newDict hc
  have hlt := hH.reaches_lt hx ((hagree.reaches b).mp hr)
  rw [reaches_newDict hb] at hlt
  exact Nat.lt_irrefl _ hlt

end Store

/-! ## Putting one heap behind another -/

def Obj.shift (n : Nat) : Obj α → Obj α
  | .scalar a => .scalar a
  | .ref a => .ref (n + a)

def Container.shift (n : Nat) : Container κ α → Container κ α
  | .dict items => .dict (items.map fun e => (e.1, e.2.shift n))
  | .list items => .list (items.map (Obj.shift n))

/-- The objects of `D` on the heap `H`. -/
def load (H D : Heap κ α) : Heap κ α := H ++ D.map (Container.shift H.length)

section Load

variable (n : Nat) (H D : Heap κ α)

omit [DecidableEq κ] in
theorem objects_shift (c : Container κ α) : (c.shift n).objects = c.objects.map (Obj.shift n) := by
  cases c with
  | dict items => simp only [Container.shift, Container.objects, List.map_map, Function.comp_def]
  | list items => rfl

omit [DecidableEq κ] in
theorem keys_shift (c : Container κ α) : (c.shift n).keys = c.keys := by
  cases c with
  | dict items => simp only [Container.shift, Container.keys, List.map_map, Function.comp_def]
  | list items => rfl

theorem child_shift (c : Container κ α) (s : Step κ) :
    (c.shift n).child s = (c.child s).map (Obj.shift n) := by
  cases c with
  | dict items =>
    cases s with
    | index i => rfl
    | key k =>
      simp only [Container.shift, Container.child]
      induction items with
      | nil => rfl
      | cons e items ih =>
        simp only [List.map_cons, find]
        split
        · rfl
        · exact ih
  | list items =>
    cases s with
    | index i => simp only [Container.shift, Container.child, List.getElem?_map]
    | key k => rfl

omit [DecidableEq κ] in
theorem getElem?_load (a : Nat) :
    (load H D)[H.length + a]? = (D[a]?).map (Container.shift H.length) := by
  rw [load, List.getElem?_append_right (Nat.le_add_right _ _), Nat.add_sub_cancel_left,
    List.getElem?_map]

omit [DecidableEq κ] in
theorem getElem?_load_of_lt {a : Nat} (h : a < H.length) : (load H D)[a]? = H[a]? :=
  List.getElem?_append_left h

theorem walk_load (x : Obj α) (path : List (Step κ)) :
    walk (load H D) (x.shift H.length) path = (walk D x path).map (Obj.shift H.length) := by
  induction path generalizing x with
  | nil => cases x <;> rfl
  | cons s path ih =>
    cases x with
    | scalar a => rfl
    | ref a =>
      simp only [Obj.shift, walk, getElem?_load]
      cases D[a]? with
      | none => rfl
      | some c =>
        simp only [Option.map_some, Option.bind_some, child_shift]
        cases c.child s with
        | none => rfl
        | some y => exact ih y

theorem reaches_load {x : Obj α} {a : Nat} (h : Reaches (load H D) (x.shift H.length) a) :
    H.length ≤ a := by
  obtain ⟨path, hpath⟩ := h
  rw [walk_load] at hpath
  obtain ⟨y, -, hy⟩ := Option.map_eq_some_iff.mp hpath
  cases y with
  | scalar b => cases hy
  | ref b =>
    cases hy
    exact Nat.le_add_right _ _

theorem unshared_load {x : Obj α} (h : Unshared D x) : Unshared (load H D) (x.shift H.length) := by
  intro p q a hp hq
  rw [walk_load] at hp hq
  obtain ⟨y, hy, hya⟩ := Option.map_eq_some_iff.mp hp
  obtain ⟨z, hz, hza⟩ := Option.map_eq_some_iff.mp hq
  cases y with
  | scalar b => cases hya
  | ref b =>
    cases z with
    | scalar c => cases hza
    | ref c =>
      have hbc : b = c := Nat.add_left_cancel (Obj.ref.inj (hya.trans hza.symm))
      exact h p q b hy (hbc ▸ hz)

omit [DecidableEq κ] in
theorem items_load (x : Obj α) :
    items (load H D) (x.shift H.length) =
      (items D x).map fun es => es.map fun e => (e.1, e.2.shift H.length) := by
  cases x with
  | scalar a => rfl
  | ref a =>
    simp only [Obj.shift, items, getElem?_load]
    cases D[a]? with
    | none => rfl
    | some c => cases c <;> rfl

omit [DecidableEq κ] in
theorem isMapping_load (x : Obj α) : isMapping (load H D) (x.shift H.length) = isMapping D x := by
  simp only [isMapping, items_load, Option.isSome_map]

omit [DecidableEq κ] in
theorem shape_load (x : Obj α) : shape (load H D) (x.shift H.length) = shape D x := by
  cases x with
  | scalar a => rfl
  | ref a =>
    simp only [Obj.shift, shape, getElem?_load]
    cases D[a]? with
    | none => rfl
    | some c => cases c <;> simp [Container.shift, Function.comp_def]

theorem value_load (x : Obj α) : value (load H D) (x.shift H.length) = value D x := by
  funext path
  simp only [value, walk_load, Option.bind_map]
  exact Option.bind_congr fun y _ => shape_load H D y

theorem setting_load (x : Obj α) (path : List κ) :
    setting (load H D) (x.shift H.length) path = setting D x path := by
  simp only [setting, walk_load, Option.bind_map]
  exact Option.bind_congr fun y _ => by simp only [Function.comp_apply, isMapping_load, value_load]

theorem touches_load (x : Obj α) (path : List κ) :
    touches (load H D) (x.shift H.length) path = touches D x path := by
  induction path generalizing x with
  | nil => rfl
  | cons k path ih =>
    simp only [touches, items_load]
    cases items D x with
    | none => rfl
    | some es =>
      have hfind : find k (es.map fun e => (e.1, e.2.shift H.length)) =
          (find k es).map (Obj.shift H.length) := child_shift H.length (.dict es) (.key k)
      simp only [Option.map_some, hfind]
      cases find k es with
      | none => rfl
      | some y => exact ih y

variable {H D}

omit [DecidableEq κ] in
theorem valid_load (hH : Valid H) (hD : Valid D) : Valid (load H D) := by
  intro c hc
  rcases List.mem_append.mp hc with hc | hc
  · exact (hH c hc).mono (by simp [load])
  · obtain ⟨d, hd, rfl⟩ := List.mem_map.mp hc
    refine ⟨fun x hx => ?_, ?_⟩
    · rw [objects_shift] at hx
      obtain ⟨y, hy, rfl⟩ := List.mem_map.mp hx
      have hon := (hD d hd).objects y hy
      cases y with
      | scalar a => trivial
      | ref a =>
        change a < D.length at hon
        change H.length + a < (load H D).length
        simp only [load, List.length_append, List.length_map]
        omega
    · rw [keys_shift]
      exact (hD d hd).keys

end Load

end Catkit2.ObjectHeap
