import Catkit2.Core.ObjectHeap

/-!
# Merging a configuration into another (catkit2/config.py, _deep_update)

`_deep_update` writes into the dictionaries of the configuration that is there;
a mapping that takes the place of something else is not copied, so that what a
YAML alias holds at two places is then one dictionary at two places of the
configuration. Calls go `limit` deep, the recursion limit of the interpreter.

* `merged_deepUpdate`: a merge that changes no dictionary held elsewhere
  returns, gives what the update touches and leaves the rest.
-/
namespace Catkit2.L4

open Catkit2.ObjectHeap

variable {κ α : Type*} [DecidableEq κ]

/-! ## The merge -/

/-- `original.get(key, {})`; the `{}` that is not needed is left out. -/
def getOrNew (H : Heap κ α) (original : Obj α) (key : κ) : Heap κ α × Obj α :=
  match (items H original).bind (find key) with
  | some y => (H, y)
  | none => newDict H

/-- One iteration; `rec` is the call of `_deep_update`.
mirrors catkit2/config.py:10-13 -/
def updateItem (rec : Heap κ α → Obj α → Obj α → Option (Heap κ α × Obj α)) (original : Obj α)
    (key : κ) (value : Obj α) (H : Heap κ α) : Option (Heap κ α) :=
  if isMapping H value then
    let old := getOrNew H original key
    (rec old.1 old.2 value).map fun merged => store merged.1 original key merged.2
  else some (store H original key value)

/-- The loop over `update.items()`, which raises if the size of `update` changes
meanwhile.
mirrors catkit2/config.py:9-13 -/
def updateItems (rec : Heap κ α → Obj α → Obj α → Option (Heap κ α × Obj α))
    (original update : Obj α) (size : Nat) : List κ → Heap κ α → Option (Heap κ α)
  | [], H => if (items H update).map List.length = some size then some H else none
  | key :: keys, H =>
    if (items H update).map List.length = some size then
      ((items H update).bind (find key)).bind fun value =>
        (updateItem rec original key value H).bind (updateItems rec original update size keys)
    else none

/-- mirrors catkit2/config.py:5-15; `none` if it raises. -/
def deepUpdate : Nat → Heap κ α → Obj α → Obj α → Option (Heap κ α × Obj α)
  | 0, _, _, _ => none
  | limit + 1, H, original, update =>
    if isMapping H original then
      (items H update).bind fun entries =>
        (updateItems (deepUpdate limit) original update entries.length (entries.map Prod.fst) H).map
          fun H => (H, original)
    else some (H, update)

/-! ## What a merge writes into -/

/-- The items `us` put something new among the items `es`: at a key that does not have
it already, nor a mapping where theirs is one too. -/
def Stores (H : Heap κ α) (es us : List (κ × Obj α)) : Prop :=
  ∃ k v, find k us = some v ∧
    ∀ c, find k es = some c → ¬ (c = v ∨ (isMapping H c = true ∧ isMapping H v = true))

/-- A mapping of `x`, at the address `a`, into which the mapping that `update` has at
the same path puts something. -/
def UpdatesAt (H : Heap κ α) (x update : Obj α) (path : List κ) (a : Nat) : Prop :=
  walk H x (path.map .key) = some (.ref a) ∧ ∃ y es us, walk H update (path.map .key) = some y ∧
    items H (.ref a) = some es ∧ items H y = some us ∧ Stores H es us

/-- What the merge changes is nowhere else in `x`, and not in `update`. -/
structure Apart (H : Heap κ α) (x update : Obj α) : Prop where
  once : ∀ path a, UpdatesAt H x update path a →
    ∀ q, walk H x q = some (.ref a) → q = path.map .key
  update : ∀ path a, UpdatesAt H x update path a → ¬ Reaches H update a

theorem apart_of_unshared {H : Heap κ α} {x update : Obj α} (hx : Unshared H x)
    (hsep : Separate H x update) : Apart H x update :=
  ⟨fun _ a ha q hq => hx q _ a hq ha.1, fun path a ha => hsep a ⟨path.map .key, ha.1⟩⟩

section Congr

variable {H H' : Heap κ α} {x update : Obj α}

theorem UpdatesAt.reaches {path : List κ} {a : Nat} (h : UpdatesAt H x update path a) : Reaches H x a :=
  ⟨path.map .key, h.1⟩

theorem updatesAt_congr (hx : Agree H H' x) (hu : Agree H H' update) {path : List κ} {a : Nat} :
    UpdatesAt H' x update path a ↔ UpdatesAt H x update path a := by
  unfold UpdatesAt
  rw [hx.walk, hu.walk]
  refine and_congr_right fun hwalk => exists_congr fun y => exists_congr fun es => exists_congr fun us =>
    and_congr_right fun hy => ?_
  rw [(hx.after hwalk).items, (hu.after hy).items]
  refine and_congr_right fun hes => and_congr_right fun hus => ?_
  unfold Stores
  refine exists_congr fun k => exists_congr fun v => and_congr_right fun hv => forall_congr' fun c =>
    imp_congr_right fun hc => ?_
  rw [((hx.after hwalk).after (walk_of_find hes hc)).isMapping, ((hu.after hy).after (walk_of_find hus hv)).isMapping]

theorem Apart.congr (h : Apart H x update) (hx : Agree H H' x) (hu : Agree H H' update) :
    Apart H' x update := by
  refine ⟨fun path a ha q hq => ?_, fun path a ha hr => ?_⟩
  · rw [hx.walk] at hq
    exact h.once path a ((updatesAt_congr hx hu).mp ha) q hq
  · exact h.update path a ((updatesAt_congr hx hu).mp ha) ((hu.reaches a).mp hr)

end Congr

/-! ## What a merge leaves -/

structure Merged (H : Heap κ α) (x update : Obj α) (H' : Heap κ α) (y : Obj α) : Prop where
  valid : Valid H'
  on : y.On H'.length
  mapping : isMapping H' y
  same : isMapping H x = true → y = x
  size : H.length ≤ H'.length
  frame : ∀ a < H.length, (∀ path, ¬ UpdatesAt H x update path a) → H'[a]? = H[a]?
  reaches : ∀ a, Reaches H' y a → Reaches H x a ∨ Reaches H update a ∨ H.length ≤ a
  setting : ∀ path, setting H' y path =
    if touches H update path then setting H update path else setting H x path
  unshared : Unshared H x → Unshared H update → Separate H x update → Unshared H' y

/-- `y` has come to a key that held `old` and that the update has `value` for. -/
structure Placed (H₀ : Heap κ α) (old : Option (Obj α)) (value : Obj α) (n : Nat) (H : Heap κ α)
    (y : Obj α) : Prop where
  on : y.On H.length
  reaches : ∀ a, Reaches H y a →
    (∃ c, old = some c ∧ Reaches H₀ c a) ∨ Reaches H₀ value a ∨ n ≤ a
  setting : ∀ path, setting H y path =
    if touches H₀ value path then setting H₀ value path else old.bind fun c => setting H₀ c path
  unshared : (∀ c, old = some c → Unshared H₀ c ∧ Separate H₀ c value) → Unshared H₀ value → Unshared H y

theorem Placed.later {H₀ H H' : Heap κ α} {old : Option (Obj α)} {value y : Obj α} {m n : Nat}
    (h : Placed H₀ old value n H y) (hy : Agree H H' y) (hsize : H.length ≤ H'.length) (hmn : m ≤ n) :
    Placed H₀ old value m H' y := by
  refine ⟨h.on.mono hsize, fun a ha => ?_, fun path => ?_,
    fun hold hvalue => hy.unshared.mpr (h.unshared hold hvalue)⟩
  · rcases h.reaches a ((hy.reaches a).mp ha) with hold | hval | hnew
    · exact .inl hold
    · exact .inr (.inl hval)
    · exact .inr (.inr (Nat.le_trans hmn hnew))
  · rw [hy.setting, h.setting]

/-- A call that goes into the loop. -/
structure UpdateCall (H₀ : Heap κ α) (o : Nat) (es₀ : List (κ × Obj α)) (update : Obj α)
    (us : List (κ × Obj α)) : Prop where
  valid : Valid H₀
  original : items H₀ (.ref o) = some es₀
  items : items H₀ update = some us
  on : update.On H₀.length
  apart : Apart H₀ (.ref o) update

/-- What the mapping holds in the loop, the keys of `done` being done. -/
structure Stored (H₀ : Heap κ α) (o : Nat) (es₀ us : List (κ × Obj α)) (done : List κ) (H : Heap κ α)
    (es : List (κ × Obj α)) : Prop where
  items : items H (.ref o) = some es
  pending : ∀ k, k ∉ done → find k es = find k es₀
  placed : ∀ k ∈ done, ∃ y value, find k es = some y ∧ find k us = some value ∧
    Placed H₀ (find k es₀) value H₀.length H y
  fresh : ∀ k ∈ done, ∀ j ∈ done, k ≠ j → ∀ y z, find k es = some y → find j es = some z →
    ∀ a, H₀.length ≤ a → Reaches H y a → ¬ Reaches H z a

structure Looped (H₀ : Heap κ α) (o : Nat) (es₀ us : List (κ × Obj α)) (done : List κ)
    (H : Heap κ α) : Prop where
  valid : Valid H
  size : H₀.length ≤ H.length
  frame : ∀ a < H₀.length, ¬ (a = o ∧ Stores H₀ es₀ us) →
    (∀ k ∈ done, ∀ c value path, find k es₀ = some c → find k us = some value →
      ¬ UpdatesAt H₀ c value path a) → H[a]? = H₀[a]?
  stored : ∃ es, Stored H₀ o es₀ us done H es

section Loop

variable {H₀ : Heap κ α} {o : Nat} {update : Obj α} {es₀ us : List (κ × Obj α)}

namespace UpdateCall

theorem lt (h : UpdateCall H₀ o es₀ update us) : o < H₀.length := by
  obtain ⟨a, ha, hget⟩ := items_eq_some.mp h.original
  cases ha
  exact (List.getElem?_eq_some_iff.mp hget).1

theorem updatesAt_nil (h : UpdateCall H₀ o es₀ update us) (hs : Stores H₀ es₀ us) :
    UpdatesAt H₀ (.ref o) update [] o :=
  ⟨rfl, update, es₀, us, rfl, h.original, h.items, hs⟩

theorem updatesAt_cons (h : UpdateCall H₀ o es₀ update us) {k : κ} {c value : Obj α}
    (hc : find k es₀ = some c) (hv : find k us = some value) {path : List κ} {a : Nat}
    (ha : UpdatesAt H₀ c value path a) : UpdatesAt H₀ (.ref o) update (k :: path) a := by
  obtain ⟨hwalk, y, es, vs, hy, hstores⟩ := ha
  refine ⟨?_, y, es, vs, ?_, hstores⟩
  · rw [List.map_cons, walk_key h.original, hc, Option.bind_some, hwalk]
  · rw [List.map_cons, walk_key h.items, hv, Option.bind_some, hy]

/-- What is at a key does not reach what is written at another, or the mapping itself. -/
theorem not_reaches (h : UpdateCall H₀ o es₀ update us) {k : κ} {c : Obj α} (hc : find k es₀ = some c)
    {path : List κ} {a : Nat} (ha : UpdatesAt H₀ (.ref o) update path a)
    (hk : ∀ rest, path ≠ k :: rest) : ¬ Reaches H₀ c a := by
  rintro ⟨q, hq⟩
  have hwalk : walk H₀ (.ref o) (.key k :: q) = some (.ref a) := by
    rw [walk_key h.original, hc, Option.bind_some, hq]
  have hpath := h.apart.once path a ha _ hwalk
  cases path with
  | nil => cases hpath
  | cons j rest =>
    rw [List.map_cons, List.cons.injEq, Step.key.injEq] at hpath
    exact hk rest (by rw [hpath.1])

theorem update_not_reaches (h : UpdateCall H₀ o es₀ update us) {k : κ} {value : Obj α}
    (hv : find k us = some value) {path : List κ} {a : Nat} (ha : UpdatesAt H₀ (.ref o) update path a) :
    ¬ Reaches H₀ value a :=
  fun hr => h.apart.update path a ha (reaches_of_find h.items hv hr)

/-- What is under a key of both is apart as well. -/
theorem apart_child (h : UpdateCall H₀ o es₀ update us) {k : κ} {c value : Obj α} (hc : find k es₀ = some c)
    (hv : find k us = some value) : Apart H₀ c value := by
  refine ⟨fun path a ha q hq => ?_, fun path a ha => h.update_not_reaches hv (h.updatesAt_cons hc hv ha)⟩
  have hwalk : walk H₀ (.ref o) (.key k :: q) = some (.ref a) := by
    rw [walk_key h.original, hc, Option.bind_some, hq]
  exact (List.cons.inj (h.apart.once _ a (h.updatesAt_cons hc hv ha) _ hwalk)).2

/-- Nor does what is under a key change the mapping itself. -/
theorem not_updatesAt_self (h : UpdateCall H₀ o es₀ update us) {k : κ} {c value : Obj α}
    (hc : find k es₀ = some c) (hv : find k us = some value) (path : List κ) :
    ¬ UpdatesAt H₀ c value path o := by
  intro hup
  have hpath := h.apart.once _ o (h.updatesAt_cons hc hv hup) [] rfl
  cases hpath

/-- What has come to a key does not reach the mapping, if that is changed. -/
theorem ne_of_placed (h : UpdateCall H₀ o es₀ update us) (hs : Stores H₀ es₀ us) {k : κ} {value y : Obj α}
    (hv : find k us = some value) {n : Nat} (hn : H₀.length ≤ n) {H : Heap κ α}
    (hy : Placed H₀ (find k es₀) value n H y) {a : Nat} (ha : Reaches H y a) : a ≠ o := by
  rintro rfl
  rcases hy.reaches a ha with ⟨c, hc, hold⟩ | hval | hnew
  · exact h.not_reaches hc (h.updatesAt_nil hs) (by simp) hold
  · exact h.update_not_reaches hv (h.updatesAt_nil hs) hval
  · exact absurd h.lt (Nat.not_lt.mpr (Nat.le_trans hn hnew))

/-- Nor what is written at another key. -/
theorem not_updatesAt_of_placed (h : UpdateCall H₀ o es₀ update us) {k key : κ} (hk : k ≠ key)
    {value v y : Obj α} (hv : find k us = some v) (hvalue : find key us = some value) {H : Heap κ α}
    (hy : Placed H₀ (find k es₀) v H₀.length H y) {a : Nat} (ha : Reaches H y a) {c : Obj α}
    (hc : find key es₀ = some c) {path : List κ} : ¬ UpdatesAt H₀ c value path a := by
  intro hup
  have hwritten := h.updatesAt_cons hc hvalue hup
  rcases hy.reaches a ha with ⟨d, hd, hold⟩ | hval | hnew
  · exact h.not_reaches hd hwritten (fun rest hrest => hk (List.cons.inj hrest).1.symm) hold
  · exact h.update_not_reaches hv hwritten hval
  · exact absurd (h.valid.reaches_lt (h.valid.find_on h.original hc) hup.reaches) (Nat.not_lt.mpr hnew)

end UpdateCall

namespace Looped

variable {done : List κ} {H : Heap κ α}

/-- The update is as it was. -/
theorem agree_update (h : Looped H₀ o es₀ us done H) (hcall : UpdateCall H₀ o es₀ update us) :
    Agree H₀ H update := by
  intro a ha
  refine h.frame a (hcall.valid.reaches_lt hcall.on ha) ?_ fun k _ c v path hc hv hup => ?_
  · rintro ⟨rfl, hs⟩
    exact hcall.apart.update _ a (hcall.updatesAt_nil hs) ha
  · exact hcall.apart.update _ a (hcall.updatesAt_cons hc hv hup) ha

/-- What is at a key that is not done is as it was. -/
theorem agree_pending (h : Looped H₀ o es₀ us done H) (hcall : UpdateCall H₀ o es₀ update us) {key : κ}
    (hkey : key ∉ done) {c : Obj α} (hc : find key es₀ = some c) : Agree H₀ H c := by
  intro a ha
  refine h.frame a (hcall.valid.reaches_lt (hcall.valid.find_on hcall.original hc) ha) ?_
    fun k hk d v path hd hv hup => ?_
  · rintro ⟨rfl, hs⟩
    exact hcall.not_reaches hc (hcall.updatesAt_nil hs) (by simp) ha
  · refine hcall.not_reaches hc (hcall.updatesAt_cons hd hv hup) (fun rest hrest => ?_) ha
    exact hkey ((List.cons.inj hrest).1 ▸ hk)

end Looped

/-! ## One iteration -/

/-- The right hand side of `original[key] = ...` has been computed. -/
structure Made (H₀ : Heap κ α) (es₀ : List (κ × Obj α)) (key : κ) (value : Obj α) (H H₁ : Heap κ α)
    (y : Obj α) : Prop where
  valid : Valid H₁
  size : H.length ≤ H₁.length
  frame : ∀ a < H.length, (∀ c path, find key es₀ = some c → ¬ UpdatesAt H₀ c value path a) →
    H₁[a]? = H[a]?
  placed : Placed H₀ (find key es₀) value H.length H₁ y
  same : ∀ c, find key es₀ = some c →
    c = value ∨ (isMapping H₀ c = true ∧ isMapping H₀ value = true) → y = c

namespace Made

variable {done : List κ} {H H₁ : Heap κ α} {key : κ} {value y : Obj α}

theorem original (hy : Made H₀ es₀ key value H H₁ y) (h : Looped H₀ o es₀ us done H)
    (hcall : UpdateCall H₀ o es₀ update us) (hv : find key us = some value) {es : List (κ × Obj α)}
    (hes : items H (.ref o) = some es) : H₁[o]? = some (.dict es) := by
  obtain ⟨a, ha, hget⟩ := items_eq_some.mp hes
  cases ha
  rw [hy.frame o (Nat.lt_of_lt_of_le hcall.lt h.size) fun c path hc => hcall.not_updatesAt_self hc hv path, hget]

/-- Where the mapping is not changed, what is stored is there. -/
theorem store_same (hy : Made H₀ es₀ key value H H₁ y) (h : Looped H₀ o es₀ us done H)
    (hcall : UpdateCall H₀ o es₀ update us) (hkey : key ∉ done) (hv : find key us = some value)
    (hs : ¬ Stores H₀ es₀ us) : store H₁ (.ref o) key y = H₁ := by
  obtain ⟨es, hes⟩ := h.stored
  obtain ⟨c, hc, hsame⟩ : ∃ c, find key es₀ = some c ∧
      (c = value ∨ (isMapping H₀ c = true ∧ isMapping H₀ value = true)) := by
    by_contra hnone
    refine hs ⟨key, value, hv, fun c hc hsame => hnone ⟨c, hc, hsame⟩⟩
  refine store_find (hy.original h hcall hv hes.items) ?_
  rw [hes.pending key hkey, hc, hy.same c hc hsame]

/-- What `original[key] = ...` leaves. -/
theorem getElem?_store (hy : Made H₀ es₀ key value H H₁ y) (h : Looped H₀ o es₀ us done H)
    (hcall : UpdateCall H₀ o es₀ update us) (hkey : key ∉ done) (hv : find key us = some value) {a : Nat}
    (ha : ¬ (a = o ∧ Stores H₀ es₀ us)) : (store H₁ (.ref o) key y)[a]? = H₁[a]? := by
  by_cases hs : Stores H₀ es₀ us
  · exact getElem?_store_of_ne (fun hao => ha ⟨hao, hs⟩) key y
  · rw [hy.store_same h hcall hkey hv hs]

theorem agree_store (hy : Made H₀ es₀ key value H H₁ y) (h : Looped H₀ o es₀ us done H)
    (hcall : UpdateCall H₀ o es₀ update us) (hkey : key ∉ done) (hv : find key us = some value) :
    Agree H₁ (store H₁ (.ref o) key y) y := fun _ ha =>
  hy.getElem?_store h hcall hkey hv fun hao => hcall.ne_of_placed hao.2 hv h.size hy.placed ha hao.1

/-- What has come to another key stays as it is. -/
theorem agree_other (hy : Made H₀ es₀ key value H H₁ y) (h : Looped H₀ o es₀ us done H)
    (hcall : UpdateCall H₀ o es₀ update us) (hkey : key ∉ done) (hv : find key us = some value) {k : κ} (hk : key ≠ k)
    {v z : Obj α} (hvk : find k us = some v) (hz : Placed H₀ (find k es₀) v H₀.length H z) :
    Agree H (store H₁ (.ref o) key y) z := by
  intro a ha
  rw [hy.getElem?_store h hcall hkey hv fun hao => hcall.ne_of_placed hao.2 hvk (Nat.le_refl _) hz ha hao.1]
  exact hy.frame a (h.valid.reaches_lt hz.on ha) fun c path hc =>
    hcall.not_updatesAt_of_placed (Ne.symm hk) hvk hv hz ha hc

/-- And has no new container in common with the one that comes now. -/
theorem fresh_other (hy : Made H₀ es₀ key value H H₁ y) (h : Looped H₀ o es₀ us done H)
    (hcall : UpdateCall H₀ o es₀ update us) (hkey : key ∉ done) (hv : find key us = some value) {k : κ} (hk : key ≠ k)
    {v z : Obj α} (hvk : find k us = some v) (hz : Placed H₀ (find k es₀) v H₀.length H z) {a : Nat}
    (ha : H₀.length ≤ a) (hya : Reaches (store H₁ (.ref o) key y) y a) :
    ¬ Reaches (store H₁ (.ref o) key y) z a := by
  intro hza
  have hlt := h.valid.reaches_lt hz.on (((hy.agree_other h hcall hkey hv hk hvk hz).reaches a).mp hza)
  rcases hy.placed.reaches a (((hy.agree_store h hcall hkey hv).reaches a).mp hya) with ⟨c, hc, hr⟩ | hr | hr
  · have := hcall.valid.reaches_lt (hcall.valid.find_on hcall.original hc) hr
    omega
  · have := hcall.valid.reaches_lt (hcall.valid.find_on hcall.items hv) hr
    omega
  · omega

theorem stored (hy : Made H₀ es₀ key value H H₁ y) (h : Looped H₀ o es₀ us done H)
    (hcall : UpdateCall H₀ o es₀ update us) (hkey : key ∉ done) (hv : find key us = some value) {es : List (κ × Obj α)}
    (hes : Stored H₀ o es₀ us done H es) :
    Stored H₀ o es₀ us (key :: done) (store H₁ (.ref o) key y) (put key y es) := by
  have hlen : (store H₁ (.ref o) key y).length = H₁.length := length_store _ key y
  have hother : ∀ k ∈ key :: done, key ≠ k → ∀ z, find k es = some z → ∃ v, find k us = some v ∧
      Placed H₀ (find k es₀) v H₀.length H z := by
    intro k hk hkk z hz
    obtain ⟨z', v, hz', hvk, hplaced⟩ := hes.placed k ((List.mem_cons.mp hk).resolve_left (Ne.symm hkk))
    obtain rfl : z' = z := Option.some.inj (hz'.symm.trans hz)
    exact ⟨v, hvk, hplaced⟩
  refine ⟨items_eq_some.mpr ⟨o, rfl, getElem?_store_self (hy.original h hcall hv hes.items) key y⟩,
    fun k hk => ?_, fun k hk => ?_, fun k hk j hj hkj w z hw hz a ha hwa hza => ?_⟩
  · rw [List.mem_cons, not_or] at hk
    rw [find_put, if_neg (Ne.symm hk.1), hes.pending k hk.2]
  · rw [find_put]
    by_cases hkk : key = k
    · subst hkk
      refine ⟨y, value, if_pos rfl, hv, ?_⟩
      exact hy.placed.later (hy.agree_store h hcall hkey hv) (Nat.le_of_eq hlen.symm) h.size
    · obtain ⟨z, v, hz, hvk, hplaced⟩ := hes.placed k ((List.mem_cons.mp hk).resolve_left (Ne.symm hkk))
      refine ⟨z, v, by rw [if_neg hkk, hz], hvk, ?_⟩
      exact hplaced.later (hy.agree_other h hcall hkey hv hkk hvk hplaced) (hlen ▸ hy.size) (Nat.le_refl _)
  · rw [find_put] at hw hz
    by_cases hkk : key = k
    · subst hkk
      rw [if_pos rfl, Option.some.injEq] at hw
      rw [if_neg hkj] at hz
      obtain ⟨v, hv', hplaced⟩ := hother j hj hkj z hz
      exact hy.fresh_other h hcall hkey hv hkj hv' hplaced ha (hw ▸ hwa) hza
    · rw [if_neg hkk] at hw
      obtain ⟨v, hvk, hwplaced⟩ := hother k hk hkk w hw
      by_cases hjk : key = j
      · subst hjk
        rw [if_pos rfl, Option.some.injEq] at hz
        exact hy.fresh_other h hcall hkey hv hkk hvk hwplaced ha (hz ▸ hza) hwa
      · rw [if_neg hjk] at hz
        obtain ⟨u, huj, hzplaced⟩ := hother j hj hjk z hz
        exact hes.fresh k ((List.mem_cons.mp hk).resolve_left (Ne.symm hkk)) j
          ((List.mem_cons.mp hj).resolve_left (Ne.symm hjk)) hkj w z hw hz a ha
          (((hy.agree_other h hcall hkey hv hkk hvk hwplaced).reaches a).mp hwa)
          (((hy.agree_other h hcall hkey hv hjk huj hzplaced).reaches a).mp hza)

/-- `original[key] = ...` -/
theorem looped (hy : Made H₀ es₀ key value H H₁ y) (h : Looped H₀ o es₀ us done H)
    (hcall : UpdateCall H₀ o es₀ update us) (hkey : key ∉ done) (hv : find key us = some value) :
    Looped H₀ o es₀ us (key :: done) (store H₁ (.ref o) key y) := by
  obtain ⟨es, hes⟩ := h.stored
  refine ⟨valid_store hy.valid (hy.original h hcall hv hes.items) key hy.placed.on, ?_,
    fun a ha hao hnot => ?_, put key y es, hy.stored h hcall hkey hv hes⟩
  · rw [length_store]
    exact Nat.le_trans h.size hy.size
  · rw [hy.getElem?_store h hcall hkey hv hao, hy.frame a (Nat.lt_of_lt_of_le ha h.size) fun c path hc =>
      hnot key List.mem_cons_self c value path hc hv]
    exact h.frame a ha hao fun k hk => hnot k (List.mem_cons_of_mem _ hk)

/-- A value that is no mapping is stored as it is. -/
theorem of_not_mapping (hH : Valid H) (hon : value.On H.length) (hu : Agree H₀ H value)
    (hmap : isMapping H₀ value = false) : Made H₀ es₀ key value H H value where
  valid := hH
  size := Nat.le_refl _
  frame _ _ _ := rfl
  placed :=
    { on := hon
      reaches := fun a ha => .inr (.inl ((hu.reaches a).mp ha))
      setting := fun path => by rw [hu.setting, touches_of_not_mapping hmap, if_pos rfl]
      unshared := fun _ hvalue => hu.unshared.mpr hvalue }
  same c _ h := by
    rcases h with rfl | ⟨-, h⟩
    · rfl
    · rw [hmap] at h
      cases h

/-- A mapping is merged into what is at the key. -/
theorem of_merged {c : Obj α} (hc : find key es₀ = some c) (hmap : isMapping H₀ value = true) (hold : Agree H₀ H c) (hu : Agree H₀ H value)
    (hm : Merged H c value H₁ y) : Made H₀ es₀ key value H H₁ y where
  valid := hm.valid
  size := hm.size
  frame a ha hnot := hm.frame a ha fun path hup => hnot c path hc ((updatesAt_congr hold hu).mp hup)
  placed := by
    refine ⟨hm.on, fun a ha => ?_, fun path => ?_, fun hx hvalue => ?_⟩
    · rcases hm.reaches a ha with hr | hr | hr
      · exact .inl ⟨c, hc, (hold.reaches a).mp hr⟩
      · exact .inr (.inl ((hu.reaches a).mp hr))
      · exact .inr (.inr hr)
    · rw [hm.setting, hu.touches, hu.setting, hold.setting, hc, Option.bind_some]
    · exact hm.unshared (hold.unshared.mpr (hx c hc).1) (hu.unshared.mpr hvalue)
        ((hold.separate hu).mpr (hx c hc).2)
  same d hd h := by
    obtain rfl : c = d := Option.some.inj (hc.symm.trans hd)
    refine hm.same (hold.isMapping.trans ?_)
    rcases h with rfl | ⟨h, -⟩
    · exact hmap
    · exact h

/-- Or into a new dictionary. -/
theorem of_newDict (hH : Valid H) (hon : value.On H.length) (hc : find key es₀ = none)
    (hu : Agree H₀ H value) (hm : Merged (newDict H).1 (newDict H).2 value H₁ y) :
    Made H₀ es₀ key value H H₁ y := by
  have hnew : Agree H (newDict H).1 value := hH.agree hon fun a ha => getElem?_newDict ha
  have hlen : (newDict H).1.length = H.length + 1 := List.length_append
  have hsize := hm.size
  refine ⟨hm.valid, by omega, fun a ha _ => ?_, ⟨hm.on, fun a ha => ?_, fun path => ?_, fun _ hvalue => ?_⟩,
    fun c hd _ => by rw [hc] at hd; cases hd⟩
  · rw [hm.frame a (by omega) fun path hup => ?_, getElem?_newDict ha]
    obtain rfl := reaches_newDict hup.reaches
    omega
  · rcases hm.reaches a ha with hr | hr | hr
    · exact .inr (.inr (Nat.le_of_eq (reaches_newDict hr).symm))
    · exact .inr (.inl ((hu.reaches a).mp ((hnew.reaches a).mp hr)))
    · exact .inr (.inr (by omega))
  · rw [hm.setting, hnew.touches, hnew.setting, hu.touches, hu.setting, hc, Option.bind_none,
      setting_newDict]
  · exact hm.unshared unshared_newDict (hnew.unshared.mpr (hu.unshared.mpr hvalue))
      (separate_newDict hH hon)

end Made

/-- One iteration of the loop. -/
theorem looped_updateItem {rec : Heap κ α → Obj α → Obj α → Option (Heap κ α × Obj α)} {done : List κ}
    {H : Heap κ α} (h : Looped H₀ o es₀ us done H) (hcall : UpdateCall H₀ o es₀ update us) {key : κ}
    (hkey : key ∉ done) {value : Obj α} (hv : find key us = some value)
    (hrec : ∀ H x, Valid H → x.On H.length → value.On H.length → Apart H x value →
      Agree H₀ H value → isMapping H value → ∃ H' y, rec H x value = some (H', y) ∧ Merged H x value H' y) :
    ∃ H', updateItem rec (.ref o) key value H = some H' ∧ Looped H₀ o es₀ us (key :: done) H' := by
  have hu := (h.agree_update hcall).after (walk_of_find hcall.items hv)
  have hon := (hcall.valid.find_on hcall.items hv).mono h.size
  unfold updateItem
  split
  · rename_i hmap
    obtain ⟨es, hes⟩ := h.stored
    cases hc : find key es₀ with
    | none =>
      have hget : getOrNew H (.ref o) key = newDict H := by
        rw [getOrNew, hes.items, Option.bind_some, hes.pending key hkey, hc]
      have hnew : Agree H (newDict H).1 value := h.valid.agree hon fun a ha => getElem?_newDict ha
      have hlen : (newDict H).1.length = H.length + 1 := List.length_append
      obtain ⟨H', y, hrun, hmerged⟩ := hrec (newDict H).1 (newDict H).2 (valid_newDict h.valid)
        (show H.length < (newDict H).1.length by omega) (hon.mono (by omega))
        (apart_of_unshared unshared_newDict (separate_newDict h.valid hon))
        (fun a ha => (hnew a ((hu.reaches a).mpr ha)).trans (hu a ha)) (hnew.isMapping.trans hmap)
      refine ⟨store H' (.ref o) key y, by simp only [hget, hrun, Option.map_some], ?_⟩
      exact (Made.of_newDict h.valid hon hc hu hmerged).looped h hcall hkey hv
    | some c =>
      have hget : getOrNew H (.ref o) key = (H, c) := by
        rw [getOrNew, hes.items, Option.bind_some, hes.pending key hkey, hc]
      have hold := h.agree_pending hcall hkey hc
      obtain ⟨H', y, hrun, hmerged⟩ := hrec H c h.valid
        ((hcall.valid.find_on hcall.original hc).mono h.size) hon
        ((hcall.apart_child hc hv).congr hold hu) hu hmap
      refine ⟨store H' (.ref o) key y, by simp only [hget, hrun, Option.map_some], ?_⟩
      exact (Made.of_merged hc (hu.isMapping ▸ hmap) hold hu hmerged).looped h hcall hkey hv
  · rename_i hmap
    rw [Bool.not_eq_true, hu.isMapping] at hmap
    exact ⟨store H (.ref o) key value, rfl, (Made.of_not_mapping h.valid hon hu hmap).looped h hcall hkey hv⟩

/-- The loop over the keys that are left. -/
theorem looped_updateItems {rec : Heap κ α → Obj α → Obj α → Option (Heap κ α × Obj α)}
    (hcall : UpdateCall H₀ o es₀ update us)
    (hrec : ∀ key value, find key us = some value → ∀ H x, Valid H → x.On H.length →
      value.On H.length → Apart H x value → Agree H₀ H value → isMapping H value →
      ∃ H' y, rec H x value = some (H', y) ∧ Merged H x value H' y)
    {keys done : List κ} {H : Heap κ α} (h : Looped H₀ o es₀ us done H) (hnodup : (keys ++ done).Nodup)
    (hkeys : ∀ k ∈ keys, k ∈ us.map Prod.fst) :
    ∃ H', updateItems rec (.ref o) update us.length keys H = some H' ∧
      ∃ all, Looped H₀ o es₀ us all H' ∧ ∀ k ∈ keys ++ done, k ∈ all := by
  induction keys generalizing done H with
  | nil =>
    refine ⟨H, ?_, done, h, fun k hk => hk⟩
    rw [updateItems, (h.agree_update hcall).items, hcall.items, Option.map_some, if_pos rfl]
  | cons key keys ih =>
    have hkey : key ∉ keys ++ done := (List.nodup_cons.mp hnodup).1
    obtain ⟨value, hv⟩ := find_of_mem (hkeys key List.mem_cons_self)
    obtain ⟨H₁, hrun, h₁⟩ := looped_updateItem h hcall (fun hmem => hkey (List.mem_append_right _ hmem)) hv
      (hrec key value hv)
    have hperm : (keys ++ key :: done).Nodup :=
      (List.perm_middle.nodup_iff).mpr hnodup
    obtain ⟨H', hrest, all, hall, hmem⟩ := ih h₁ hperm fun k hk => hkeys k (List.mem_cons_of_mem _ hk)
    refine ⟨H', ?_, all, hall, fun k hk => hmem k (List.perm_middle.symm.subset hk)⟩
    rw [updateItems, (h.agree_update hcall).items, hcall.items, Option.map_some, if_pos rfl,
      Option.bind_some, hv, Option.bind_some, hrun, Option.bind_some, hrest]

/-- Where what is reached by an item comes from. -/
theorem Stored.origin {done : List κ} {H : Heap κ α} {es : List (κ × Obj α)}
    (hes : Stored H₀ o es₀ us done H es) (h : Looped H₀ o es₀ us done H)
    (hcall : UpdateCall H₀ o es₀ update us)
    {k : κ} {y : Obj α} (hy : find k es = some y) {a : Nat} (ha : Reaches H y a) :
    (∃ c, find k es₀ = some c ∧ Reaches H₀ c a) ∨ (∃ v, find k us = some v ∧ Reaches H₀ v a) ∨
      (k ∈ done ∧ H₀.length ≤ a) := by
  by_cases hk : k ∈ done
  · obtain ⟨z, v, hz, hv, hplaced⟩ := hes.placed k hk
    obtain rfl : z = y := Option.some.inj (hz.symm.trans hy)
    rcases hplaced.reaches a ha with hold | hval | hnew
    · exact .inl hold
    · exact .inr (.inl ⟨v, hv, hval⟩)
    · exact .inr (.inr ⟨hk, hnew⟩)
  · rw [hes.pending k hk] at hy
    exact .inl ⟨y, hy, ((h.agree_pending hcall hk hy).reaches a).mp ha⟩

/-- Items share nothing if those of the mapping and those of the update do not. -/
theorem Stored.separate {done : List κ} {H : Heap κ α} {es : List (κ × Obj α)}
    (hes : Stored H₀ o es₀ us done H es) (h : Looped H₀ o es₀ us done H)
    (hcall : UpdateCall H₀ o es₀ update us)
    (hx : Unshared H₀ (.ref o)) (hu : Unshared H₀ update) (hsep : Separate H₀ (.ref o) update) {k j : κ}
    (hkj : k ≠ j) {y z : Obj α} (hy : find k es = some y) (hz : find j es = some z) : Separate H y z := by
  have hold : ∀ {i c a}, find i es₀ = some c → Reaches H₀ c a → Reaches H₀ (.ref o) a ∧ a < H₀.length :=
    fun hc hr => ⟨reaches_of_find hcall.original hc hr,
      hcall.valid.reaches_lt (hcall.valid.find_on hcall.original hc) hr⟩
  have hnew : ∀ {i v a}, find i us = some v → Reaches H₀ v a → Reaches H₀ update a ∧ a < H₀.length :=
    fun hv hr => ⟨reaches_of_find hcall.items hv hr,
      hcall.valid.reaches_lt (hcall.valid.find_on hcall.items hv) hr⟩
  intro a hya hza
  rcases hes.origin h hcall hy hya with ⟨c, hc, hr⟩ | ⟨v, hv, hr⟩ | ⟨hk, hr⟩
  · rcases hes.origin h hcall hz hza with ⟨d, hd, hr'⟩ | ⟨w, hw, hr'⟩ | ⟨-, hr'⟩
    · exact hx.separate hcall.original hkj hc hd a hr hr'
    · exact hsep a (hold hc hr).1 (hnew hw hr').1
    · exact absurd (hold hc hr).2 (Nat.not_lt.mpr hr')
  · rcases hes.origin h hcall hz hza with ⟨d, hd, hr'⟩ | ⟨w, hw, hr'⟩ | ⟨-, hr'⟩
    · exact hsep a (hold hd hr').1 (hnew hv hr).1
    · exact hu.separate hcall.items hkj hv hw a hr hr'
    · exact absurd (hnew hv hr).2 (Nat.not_lt.mpr hr')
  · rcases hes.origin h hcall hz hza with ⟨d, hd, hr'⟩ | ⟨w, hw, hr'⟩ | ⟨hj, -⟩
    · exact absurd (hold hd hr').2 (Nat.not_lt.mpr hr)
    · exact absurd (hnew hw hr').2 (Nat.not_lt.mpr hr)
    · exact hes.fresh k hk j hj hkj y z hy hz a hr hya hza

theorem Looped.unshared {done : List κ} {H : Heap κ α} (h : Looped H₀ o es₀ us done H)
    (hcall : UpdateCall H₀ o es₀ update us) (hx : Unshared H₀ (.ref o)) (hu : Unshared H₀ update)
    (hsep : Separate H₀ (.ref o) update) : Unshared H (.ref o) := by
  obtain ⟨es, hes⟩ := h.stored
  refine unshared_dict hes.items (fun k y hy => ?_) (fun k y hy a ha => ?_)
    fun k j y z hkj hy hz => hes.separate h hcall hx hu hsep hkj hy hz
  · by_cases hk : k ∈ done
    · obtain ⟨z, v, hz, hv, hplaced⟩ := hes.placed k hk
      obtain rfl : z = y := Option.some.inj (hz.symm.trans hy)
      refine hplaced.unshared (fun c hc => ⟨hx.child hcall.original hc, fun a hca hva => ?_⟩)
        (hu.child hcall.items hv)
      exact hsep a (reaches_of_find hcall.original hc hca) (reaches_of_find hcall.items hv hva)
    · rw [hes.pending k hk] at hy
      exact (h.agree_pending hcall hk hy).unshared.mpr (hx.child hcall.original hy)
  · rcases hes.origin h hcall hy ha with ⟨c, hc, hr⟩ | ⟨v, hv, hr⟩ | ⟨-, hr⟩
    · exact hx.ne_of_reaches hcall.original hc hr
    · rintro rfl
      exact hsep a (.self H₀ a) (reaches_of_find hcall.items hv hr)
    · exact Nat.ne_of_gt (Nat.lt_of_lt_of_le hcall.lt hr)

/-- After the loop. -/
theorem Looped.merged {done : List κ} {H : Heap κ α} (h : Looped H₀ o es₀ us done H)
    (hcall : UpdateCall H₀ o es₀ update us) (hall : ∀ k ∈ us.map Prod.fst, k ∈ done) :
    Merged H₀ (.ref o) update H (.ref o) := by
  obtain ⟨es, hes⟩ := h.stored
  refine ⟨h.valid, Nat.lt_of_lt_of_le hcall.lt h.size, isMapping_eq_true.mpr ⟨es, hes.items⟩, fun _ => rfl, h.size,
    fun a ha hnot => ?_, fun a ha => ?_, fun path => ?_, h.unshared hcall⟩
  · refine h.frame a ha ?_ fun k _ c v path hc hv hup => hnot _ (hcall.updatesAt_cons hc hv hup)
    rintro ⟨rfl, hs⟩
    exact hnot [] (hcall.updatesAt_nil hs)
  · rcases reaches_dict hes.items ha with rfl | ⟨k, y, hy, hr⟩
    · exact .inl (.self H₀ a)
    · rcases hes.origin h hcall hy hr with ⟨c, hc, hold⟩ | ⟨v, hv, hval⟩ | ⟨-, hnew⟩
      · exact .inl (reaches_of_find hcall.original hc hold)
      · exact .inr (.inl (reaches_of_find hcall.items hv hval))
      · exact .inr (.inr hnew)
  · cases path with
    | nil =>
      rw [setting_nil (isMapping_eq_true.mpr ⟨es, hes.items⟩), touches, if_pos rfl,
        setting_nil (isMapping_eq_true.mpr ⟨us, hcall.items⟩)]
    | cons k path =>
      rw [setting_cons hes.items, touches_cons hcall.items, setting_cons hcall.items,
        setting_cons hcall.original]
      by_cases hk : k ∈ done
      · obtain ⟨z, v, hz, hv, hplaced⟩ := hes.placed k hk
        rw [hz, hv, Option.bind_some, Option.bind_some, Option.any_some, hplaced.setting]
      · have hu : find k us = none := by
          cases hv : find k us with
          | none => rfl
          | some v => exact absurd (hall k (List.mem_map_of_mem (mem_of_find hv))) hk
        rw [hes.pending k hk, hu, Option.any_none, if_neg Bool.false_ne_true]
        exact Option.bind_congr fun y hy => (h.agree_pending hcall hk hy).setting path

end Loop

/-- Mappings at paths of keys of less than `limit` keys only. -/
def NestedBelow (H : Heap κ α) (x : Obj α) (limit : Nat) : Prop :=
  ∀ (path : List κ) y, walk H x (path.map .key) = some y → isMapping H y → path.length < limit

theorem NestedBelow.child {H H' : Heap κ α} {x y : Obj α} {limit : Nat} (h : NestedBelow H x (limit + 1))
    {es : List (κ × Obj α)} (hx : items H x = some es) {k : κ} (hy : find k es = some y)
    (hagree : Agree H H' y) : NestedBelow H' y limit := by
  intro path z hz hmap
  rw [hagree.walk] at hz
  rw [(hagree.after hz).isMapping] at hmap
  refine Nat.lt_of_succ_lt_succ (h (k :: path) z ?_ hmap)
  rw [List.map_cons, walk_key hx, hy, Option.bind_some, hz]

/-- What is no mapping is replaced, whatever the update touches. -/
theorem setting_replaced {H : Heap κ α} {x update : Obj α} (hx : isMapping H x = false)
    (path : List κ) :
    setting H update path = if touches H update path then setting H update path else setting H x path := by
  split
  · rfl
  · rename_i ht
    cases path with
    | nil => exact absurd rfl ht
    | cons k path =>
      rw [setting_cons_of_not_mapping hx]
      cases hs : setting H update (k :: path) with
      | none => rfl
      | some v => exact absurd (touches_of_setting hs) ht

/-- **A merge that is apart** returns and gives what the update touches. -/
theorem merged_deepUpdate {limit : Nat} {H : Heap κ α} {x update : Obj α} (hH : Valid H)
    (hx : x.On H.length) (hu : update.On H.length) (hmap : isMapping H update)
    (hapart : Apart H x update) (hdeep : NestedBelow H update limit) :
    ∃ H' y, deepUpdate limit H x update = some (H', y) ∧ Merged H x update H' y := by
  induction limit generalizing H x update with
  | zero => exact absurd (hdeep [] update rfl hmap) (Nat.not_lt_zero _)
  | succ limit ih =>
    rw [deepUpdate]
    split
    · rename_i hmx
      obtain ⟨es₀, hes₀⟩ := isMapping_eq_true.mp hmx
      obtain ⟨us, hus⟩ := isMapping_eq_true.mp hmap
      obtain ⟨o, rfl, -⟩ := items_eq_some.mp hes₀
      have hcall : UpdateCall H o es₀ update us := ⟨hH, hes₀, hus, hu, hapart⟩
      have hstart : Looped H o es₀ us [] H :=
        ⟨hH, Nat.le_refl _, fun a _ _ _ => rfl, es₀, hes₀, fun k _ => rfl,
          fun k hk => absurd hk List.not_mem_nil, fun k hk => absurd hk List.not_mem_nil⟩
      obtain ⟨H', hrun, all, hall, hmem⟩ := looped_updateItems hcall
        (fun key value hv H₁ y hvalid hy hvalue hap hsame hm =>
          ih hvalid hy hvalue hm hap (hdeep.child hus hv hsame)) hstart
        (by rw [List.append_nil]; exact hH.nodup_keys hus) fun k hk => hk
      refine ⟨H', .ref o, by rw [hus, Option.bind_some, hrun, Option.map_some], hall.merged hcall ?_⟩
      exact fun k hk => hmem k (List.mem_append_left _ hk)
    · rename_i hmx
      rw [Bool.not_eq_true] at hmx
      exact ⟨H, update, rfl, hH, hu, hmap, fun h => absurd h (by simp [hmx]), Nat.le_refl _, fun a _ _ => rfl, fun a ha => .inr (.inl ha),
        setting_replaced hmx, fun _ hu _ => hu⟩

end Catkit2.L4
