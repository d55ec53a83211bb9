import Catkit2.Core.DepthFirst
import Catkit2.Core.LeafRemoval
import Catkit2.Core.Memo
import Mathlib.Data.List.Dedup

/-!
# Optical models (catkit2/simulator/optical_model.py)

A model is a graph of planes. The wavefronts at a plane are set from outside,
or computed by the plane's propagator from those at the planes it depends on;
what was computed is cached until the plane or one before it is set or purged.

`evaluate` is the meaning of a plane: computed from scratch, with the
wavefronts that were set (`Overrides`) in their places. A propagator is a
function that may raise; `depth` is what the interpreter leaves of its
recursion limit, more than there are planes.

* `sound_exec`: every operation leaves cached only what `evaluate` returns.
* `get_eq_evaluate`: after any sequence of operations `getWavefronts` returns
  what `evaluate` does, and `propagate` leaves the cache as it was.
-/
namespace Catkit2.L5

variable {κ W : Type} [DecidableEq κ]

/-! ## The model -/

/-- A list of wavefronts, or one that stands for the list of it. -/
inductive Wavefronts (W : Type) where
  | one (w : W)
  | many (l : List W)

namespace Wavefronts

/-- mirrors catkit2/simulator/optical_model.py:181-182 -/
def asList : Wavefronts W → List W
  | .one w => [w]
  | .many l => l

/-- mirrors catkit2/simulator/optical_model.py:175-178 -/
def ofList : List W → Wavefronts W
  | [w] => .one w
  | l => .many l

end Wavefronts

/-- mirrors catkit2/simulator/optical_model.py:105-112 -/
structure OpticalModel (κ W : Type) where
  planeDependencies : κ → Option (List κ)
  planeDependents : κ → List κ
  planePropagators : κ → Option (List W → Except String W)
  graph : List (κ × κ)
  cachedWavefronts : κ → Option (List W)

namespace OpticalModel

def new : OpticalModel κ W :=
  ⟨fun _ => none, fun _ => [], fun _ => none, [], fun _ => none⟩

/-- `registerPlane`, with the function that its decorator is put on.
mirrors catkit2/simulator/optical_model.py:151-167 -/
def registerPlane (m : OpticalModel κ W) (plane : κ) (dependencies : List κ)
    (func : List W → Except String W) : OpticalModel κ W where
  planeDependencies := Function.update m.planeDependencies plane (some dependencies)
  planeDependents := dependencies.foldl
    (fun d dep => Function.update d dep (d dep ++ [plane])) m.planeDependents
  planePropagators := Function.update m.planePropagators plane (some func)
  graph := m.graph ++ dependencies.map fun dependency => (dependency, plane)
  cachedWavefronts := m.cachedWavefronts

/-- `zip(*lists)`: as long as the shortest, and empty of no lists. -/
def zip : List (List W) → List (List W)
  | [] => []
  | [l] => l.map fun w => [w]
  | l :: ls => List.zipWith List.cons l (zip ls)

def recursionError : String := "RecursionError: maximum recursion depth exceeded"

/-- The planes that a plane is computed from, and how.
mirrors catkit2/simulator/optical_model.py:197-208 -/
def rules (m : OpticalModel κ W) : Rules κ (List W) String where
  rule plane :=
    match m.planePropagators plane with
    | none => .error "KeyError"
    | some prop =>
      match m.planeDependencies plane with
      | none => .error "KeyError"
      | some dependencies => .ok (dependencies, fun input => (zip input).mapM prop)
  overflow := recursionError

def purgeAll (m : OpticalModel κ W) : OpticalModel κ W := { m with cachedWavefronts := fun _ => none }

/-- The cached wavefronts after `purgePlane`, and the exception it ended with.
mirrors catkit2/simulator/optical_model.py:132-136 -/
def purge (m : OpticalModel κ W) (depth : Nat) (plane : κ) : (κ → Option (List W)) × Option String :=
  dfs (fun cached plane => .visit (Function.update cached plane none)) m.planeDependents recursionError
    depth m.cachedWavefronts plane

def purgePlane (m : OpticalModel κ W) (depth : Nat) (plane : κ) : OpticalModel κ W × Option String :=
  ({ m with cachedWavefronts := (m.purge depth plane).1 }, (m.purge depth plane).2)

/-- mirrors catkit2/simulator/optical_model.py:180-185 -/
def setWavefronts (m : OpticalModel κ W) (depth : Nat) (plane : κ) (wavefronts : Wavefronts W) :
    OpticalModel κ W × Option String :=
  match m.purgePlane depth plane with
  | (m, some e) => (m, some e)
  | (m, none) =>
    ({ m with cachedWavefronts := Function.update m.cachedWavefronts plane (some wavefronts.asList) }, none)

/-- mirrors catkit2/simulator/optical_model.py:187-212 -/
def getWavefronts (m : OpticalModel κ W) (depth : Nat) (plane : κ) :
    Except String (List W) × OpticalModel κ W :=
  let (res, cached) := m.rules.memo depth m.cachedWavefronts plane
  (res, { m with cachedWavefronts := cached })

/-- The body of a `with` statement; the cache comes back also when it raises.
mirrors catkit2/simulator/optical_model.py:138-149 -/
def temporaryCache {α : Type} (m : OpticalModel κ W) (body : OpticalModel κ W → α × OpticalModel κ W) :
    α × OpticalModel κ W :=
  let oldCache := m.cachedWavefronts
  let (res, m) := body { m with cachedWavefronts := fun _ => none }
  (res, { m with cachedWavefronts := oldCache })

/-- mirrors catkit2/simulator/optical_model.py:169-178 -/
def propagate (m : OpticalModel κ W) (depth : Nat) (inputPlane outputPlane : κ)
    (wavefronts : Wavefronts W) : Except String (Wavefronts W) × OpticalModel κ W :=
  m.temporaryCache fun m =>
    match m.setWavefronts depth inputPlane wavefronts with
    | (m, some e) => (.error e, m)
    | (m, none) =>
      match m.getWavefronts depth outputPlane with
      | (.error e, m) => (.error e, m)
      | (.ok res, m) => (.ok (.ofList res), m)

/-! ## Operations -/

inductive Op (κ W : Type) where
  | setWavefronts (plane : κ) (wavefronts : Wavefronts W)
  | purgePlane (plane : κ)
  | purgeAll
  | getWavefronts (plane : κ)
  | propagate (inputPlane outputPlane : κ) (wavefronts : Wavefronts W)
  /-- The propagator of a plane changes, and the plane is purged. -/
  | change (plane : κ) (prop : List W → Except String W)

/-- An operation that raises leaves what it did until then. -/
def exec (depth : Nat) (m : OpticalModel κ W) : Op κ W → OpticalModel κ W
  | .setWavefronts plane wavefronts => (m.setWavefronts depth plane wavefronts).1
  | .purgePlane plane => (m.purgePlane depth plane).1
  | .purgeAll => m.purgeAll
  | .getWavefronts plane => (m.getWavefronts depth plane).2
  | .propagate input output wavefronts => (m.propagate depth input output wavefronts).2
  | .change plane prop =>
    ({ m with planePropagators := Function.update m.planePropagators plane (some prop) }.purgePlane
      depth plane).1

def run (depth : Nat) (m : OpticalModel κ W) (ops : List (Op κ W)) : OpticalModel κ W :=
  ops.foldl (exec depth) m

/-! ## What the planes mean -/

/-- Wavefronts at `p` are used for those at `q`. -/
def Edge (m : OpticalModel κ W) (p q : κ) : Prop := (p, q) ∈ m.graph

/-- `p` is `q`, or comes before it. -/
def Reaches (m : OpticalModel κ W) : κ → κ → Prop := Relation.ReflTransGen m.Edge

/-- The nodes of the graph. -/
def planes (m : OpticalModel κ W) : List κ := (m.graph.flatMap fun e => [e.1, e.2]).dedup

/-- The wavefronts that were set and still count. -/
abbrev Overrides (κ W : Type) := κ → Option (List W)

/-- Evaluate the plane recursively, without a cache. -/
def evaluate (m : OpticalModel κ W) (overrides : Overrides κ W) (depth : Nat) (q : κ) :
    Except String (List W) :=
  m.rules.eval overrides depth q

open Classical in
/-- What was set at a plane counts until the plane or one before it is set or purged. -/
noncomputable def override (m : OpticalModel κ W) (overrides : Overrides κ W) : Op κ W → Overrides κ W
  | .setWavefronts p wavefronts => fun q =>
    if q = p then some wavefronts.asList else if m.Reaches p q then none else overrides q
  | .purgePlane p | .change p _ => fun q => if m.Reaches p q then none else overrides q
  | .purgeAll => fun _ => none
  | .getWavefronts _ | .propagate _ _ _ => overrides

/-- What counts after a sequence of operations. -/
noncomputable def overridden (m : OpticalModel κ W) (ops : List (Op κ W)) : Overrides κ W :=
  ops.foldl m.override fun _ => none

/-! ## Registered planes -/

/-- Planes were registered, nothing else was done. -/
inductive Registered : OpticalModel κ W → Prop
  | new : Registered new
  | plane {m : OpticalModel κ W} (h : Registered m) (plane : κ) (dependencies : List κ)
      (func : List W → Except String W) : Registered (m.registerPlane plane dependencies func)

/-- The two dictionaries agree with the graph. -/
structure Wired (m : OpticalModel κ W) : Prop where
  dependents : ∀ p q, q ∈ m.planeDependents p ↔ m.Edge p q
  dependencies : ∀ q deps, m.planeDependencies q = some deps → ∀ p ∈ deps, m.Edge p q

theorem mem_appendAll {plane p q : κ} : ∀ {deps : List κ} {d : κ → List κ},
    q ∈ deps.foldl (fun d dep => Function.update d dep (d dep ++ [plane])) d p ↔
      q ∈ d p ∨ p ∈ deps ∧ q = plane
  | [], d => by simp
  | dep :: deps, d => by
    rw [List.foldl_cons, mem_appendAll]
    by_cases hp : p = dep
    · subst hp
      simp only [Function.update_self, List.mem_append, List.mem_cons, true_or, true_and]
      tauto
    · rw [Function.update_of_ne hp, List.mem_cons]
      tauto

theorem Registered.wired {m : OpticalModel κ W} (h : Registered m) : Wired m := by
  induction h with
  | new =>
    refine ⟨fun p q => ?_, fun q deps hq => ?_⟩
    · simp [OpticalModel.new, Edge]
    · cases hq
  | @plane m _ plane dependencies func ih =>
    have hedge : ∀ p q, (m.registerPlane plane dependencies func).Edge p q ↔
        m.Edge p q ∨ p ∈ dependencies ∧ q = plane := by
      intro p q
      simp only [Edge, registerPlane, List.mem_append, List.mem_map, Prod.mk.injEq]
      refine or_congr_right ⟨?_, ?_⟩
      · rintro ⟨dep, hdep, rfl, rfl⟩
        exact ⟨hdep, rfl⟩
      · rintro ⟨hp, rfl⟩
        exact ⟨p, hp, rfl, rfl⟩
    refine ⟨fun p q => ?_, fun q deps hq p hp => ?_⟩
    · rw [hedge, ← ih.dependents]
      exact mem_appendAll
    · rw [hedge]
      by_cases hqp : q = plane
      · subst hqp
        simp only [registerPlane, Function.update_self, Option.some.injEq] at hq
        exact .inr ⟨hq ▸ hp, rfl⟩
      · simp only [registerPlane, Function.update_of_ne hqp] at hq
        exact .inl (ih.dependencies q deps hq p hp)

theorem edge_mem_planes {m : OpticalModel κ W} {p q : κ} (h : m.Edge p q) :
    p ∈ m.planes ∧ q ∈ m.planes := by
  unfold planes
  simp only [List.mem_dedup, List.mem_flatMap]
  exact ⟨⟨(p, q), h, by simp⟩, (p, q), h, by simp⟩

/-! ## Operations keep the cache coherent -/

/-- The dictionaries agree with the graph, whose planes are numbered within the
recursion limit, and what is cached is what the planes mean. -/
structure Sound (level : κ → Nat) (depth : Nat) (m : OpticalModel κ W) (o : Overrides κ W) : Prop where
  wired : Wired m
  leveled : Rules.Leveled m.Edge level
  deep : ∀ p, level p < depth
  coherent : m.rules.Coherent level o m.cachedWavefronts

variable {level : κ → Nat} {depth : Nat} {m : OpticalModel κ W} {o : Overrides κ W}

omit [DecidableEq κ] in
theorem Wired.inputsFrom (h : Wired m) : m.rules.InputsFrom m.Edge := by
  intro q inputs f hrule p hp
  simp only [rules] at hrule
  split at hrule
  · cases hrule
  · split at hrule
    · cases hrule
    · rename_i deps hdeps
      cases hrule
      exact h.dependencies q _ hdeps p hp

/-- `purge_plane` empties the cache at everything the plane leads to, and
nowhere else. -/
theorem purge_spec (hw : Wired m) (hl : Rules.Leveled m.Edge level) (hd : ∀ p, level p < depth)
    (p : κ) : (m.purge depth p).2 = none ∧
      (∀ q, m.Reaches p q → (m.purge depth p).1 q = none) ∧
      ∀ q, ¬ m.Reaches p q → (m.purge depth p).1 q = m.cachedWavefronts q := by
  have hreach : ∀ a b, Relation.ReflTransGen (fun a b => b ∈ m.planeDependents a) a b ↔
      m.Reaches a b := by
    intro a b
    simp only [hw.dependents]
    rfl
  have hdoes : Does (fun (cached : κ → Option (List W)) (plane : κ) =>
      (.visit (Function.update cached plane none) : Entry (κ → Option (List W)) String))
      (fun (cached : κ → Option (List W)) q => cached q = none) := by
    refine ⟨fun s v => ⟨_, rfl, Function.update_self _ _ _⟩, fun s v s' u hv hu => ?_⟩
    cases hv
    by_cases huv : u = v
    · subst huv; exact Function.update_self _ _ _
    · rw [Function.update_of_ne huv]; exact hu
  -- the rank counts the levels that are left
  have hrank : ∀ v, ∀ w ∈ m.planeDependents v, depth - 1 - level w < depth - 1 - level v := by
    intro v w hvw
    have h1 := hl v w ((hw.dependents v w).mp hvw)
    have h2 := hd w
    omega
  obtain ⟨h1, -, h3⟩ := dfs_done hdoes hrank depth p (by have := hd p; omega) m.cachedWavefronts
  refine ⟨h1, fun q hq => h3 q ((hreach p q).mpr hq), fun q hq => ?_⟩
  refine dfs_invariant (I := fun cached : Overrides κ W => cached q = m.cachedWavefronts q) (P := m.Reaches p)
    ?_ ?_ depth _ _ rfl .refl
  · intro s v s' hs hv hvisit
    cases hvisit
    have hne : q ≠ v := fun he => hq (he ▸ hv)
    refine ⟨?_, fun w hw' => hv.tail ((hw.dependents v w).mp hw')⟩
    rw [Function.update_of_ne hne]
    exact hs
  · intro s v s' e _ _ hfail
    cases hfail

omit [DecidableEq κ] in
/-- Changing the propagator and the wavefronts of a plane, and purging it. -/
theorem Sound.purged (h : Sound level depth m o) {p : κ} {m' : OpticalModel κ W} {o' : Overrides κ W}
    (hgraph : m'.graph = m.graph) (hdeps : m'.planeDependencies = m.planeDependencies)
    (hdents : m'.planeDependents = m.planeDependents)
    (hprop : ∀ q, ¬ m.Reaches p q → m'.planePropagators q = m.planePropagators q)
    (hover : ∀ q, ¬ m.Reaches p q → o' q = o q)
    (hkeep : ∀ q, ¬ m.Reaches p q → m'.cachedWavefronts q = m.cachedWavefronts q)
    (hcut : ∀ q, m.Reaches p q → m'.cachedWavefronts q = o' q) : Sound level depth m' o' := by
  have hedge : m'.Edge = m.Edge := by
    unfold Edge
    rw [hgraph]
  refine ⟨⟨?_, ?_⟩, hedge ▸ h.leveled, h.deep, ?_⟩
  · rw [hdents, hedge]; exact h.wired.dependents
  · rw [hdeps, hedge]; exact h.wired.dependencies
  · refine h.coherent.cut (m.Reaches p) rfl h.wired.inputsFrom
      (fun a b ha hab => ha.tail hab) (fun q hq => ?_) hover hkeep hcut
    simp only [rules, hdeps, hprop q hq]

omit [DecidableEq κ] in
/-- Changing the cache only. -/
theorem Sound.recached (h : Sound level depth m o) {o' cached : Overrides κ W}
    (hc : m.rules.Coherent level o' cached) :
    Sound level depth { m with cachedWavefronts := cached } o' :=
  ⟨⟨h.wired.dependents, h.wired.dependencies⟩, h.leveled, h.deep, hc⟩

theorem Sound.setWavefronts (h : Sound level depth m o) (p : κ) (wavefronts : Wavefronts W) :
    ∃ m', m.setWavefronts depth p wavefronts = (m', none) ∧ m'.rules = m.rules ∧
      Sound level depth m' (m.override o (.setWavefronts p wavefronts)) := by
  obtain ⟨hok, hnone, hsame⟩ := purge_spec h.wired h.leveled h.deep p
  refine ⟨{ m with cachedWavefronts := Function.update (m.purge depth p).1 p (some wavefronts.asList) },
    by simp only [OpticalModel.setWavefronts, purgePlane, hok], rfl, ?_⟩
  refine h.purged (p := p) rfl rfl rfl (fun _ _ => rfl) (fun q hq => ?_) (fun q hq => ?_) fun q hq => ?_
  · have hne : q ≠ p := fun he => hq (he ▸ .refl)
    simp only [override, if_neg hne, if_neg hq]
  · have hne : q ≠ p := fun he => hq (he ▸ .refl)
    simp only [Function.update_of_ne hne]
    exact hsame q hq
  · by_cases hqp : q = p
    · subst hqp
      simp only [override, Function.update_self, if_true]
    · simp only [override, Function.update_of_ne hqp, if_neg hqp, if_pos hq]
      exact hnone q hq

theorem Sound.getWavefronts (h : Sound level depth m o) (q : κ) :
    (m.getWavefronts depth q).1 = m.evaluate o depth q ∧
      Sound level depth (m.getWavefronts depth q).2 o := by
  obtain ⟨h1, h2⟩ := Rules.memo_spec h.wired.inputsFrom h.leveled depth q (h.deep q) _ h.coherent
  refine ⟨h1.trans ?_, h.recached h2⟩
  exact Rules.eval_stable h.wired.inputsFrom h.leveled o _ _ q (Nat.lt_succ_self _) (h.deep q)

/-- `m'` is `m` with another cache. -/
def Recached (m m' : OpticalModel κ W) : Prop := { m' with cachedWavefronts := m.cachedWavefronts } = m

theorem recached_setWavefronts (m : OpticalModel κ W) (depth : Nat) (p : κ)
    (wavefronts : Wavefronts W) : Recached m (m.setWavefronts depth p wavefronts).1 := by
  have hpurge : Recached m (m.purgePlane depth p).1 := rfl
  simp only [OpticalModel.setWavefronts]
  split
  · rename_i m' e heq
    rw [heq] at hpurge
    exact hpurge
  · rename_i m' heq
    rw [heq] at hpurge
    exact hpurge

omit [DecidableEq κ] in
theorem Recached.trans {a b c : OpticalModel κ W} (h : Recached a b) (h' : Recached b c) :
    Recached a c := by
  unfold Recached at *
  rw [← h, ← h']

omit [DecidableEq κ] in
theorem Recached.graph {m m' : OpticalModel κ W} (h : Recached m m') : m'.graph = m.graph := by
  have hgraph := congrArg OpticalModel.graph h
  exact hgraph

/-- `propagate` puts the cache back, also when it raises. -/
theorem propagate_snd (m : OpticalModel κ W) (depth : Nat) (input output : κ)
    (wavefronts : Wavefronts W) : (m.propagate depth input output wavefronts).2 = m := by
  have hempty : Recached m { m with cachedWavefronts := fun _ => none } := rfl
  have hset := recached_setWavefronts { m with cachedWavefronts := fun _ => none } depth input wavefronts
  simp only [propagate, temporaryCache]
  split
  · rename_i m' e heq
    rw [heq] at hset
    exact hempty.trans hset
  · rename_i m' heq
    rw [heq] at hset
    have hget : Recached m' (m'.getWavefronts depth output).2 := rfl
    have hall := hempty.trans (hset.trans hget)
    split <;> rename_i heq' <;> rw [heq'] at hall <;> exact hall

/-- **Each operation.** -/
theorem sound_exec (h : Sound level depth m o) (op : Op κ W) :
    Sound level depth (m.exec depth op) (m.override o op) := by
  cases op with
  | setWavefronts p wavefronts =>
    obtain ⟨m', hset, -, hm⟩ := h.setWavefronts p wavefronts
    simp only [exec, hset]
    exact hm
  | purgePlane p =>
    obtain ⟨-, hnone, hsame⟩ := purge_spec h.wired h.leveled h.deep p
    refine h.purged (p := p) rfl rfl rfl (fun _ _ => rfl) (fun q hq => ?_) hsame fun q hq => ?_
    · simp only [override, if_neg hq]
    · simp only [override, if_pos hq]
      exact hnone q hq
  | purgeAll => exact h.recached .empty
  | getWavefronts q => exact (h.getWavefronts q).2
  | propagate input output wavefronts =>
    simp only [exec, propagate_snd]
    exact h
  | change p prop =>
    have hw : Wired { m with planePropagators := Function.update m.planePropagators p (some prop) } :=
      ⟨h.wired.dependents, h.wired.dependencies⟩
    obtain ⟨-, hnone, hsame⟩ := purge_spec hw h.leveled h.deep p
    refine h.purged (p := p) rfl rfl rfl (fun q hq => ?_) (fun q hq => ?_) hsame fun q hq => ?_
    · have hne : q ≠ p := fun he => hq (he ▸ .refl)
      exact Function.update_of_ne hne _ _
    · simp only [override, if_neg hq]
    · simp only [override, if_pos hq]
      exact hnone q hq

/-! ## Runs -/

theorem override_congr {m' : OpticalModel κ W} (h : m'.graph = m.graph) : m'.override = m.override := by
  have hreach : m'.Reaches = m.Reaches := by
    unfold Reaches Edge
    rw [h]
  funext o op
  unfold override
  rw [hreach]

theorem graph_exec (m : OpticalModel κ W) (depth : Nat) (op : Op κ W) :
    (m.exec depth op).graph = m.graph := by
  cases op with
  | setWavefronts p wavefronts =>
    exact (recached_setWavefronts m depth p wavefronts).graph
  | propagate input output wavefronts => rw [exec, propagate_snd]
  | purgePlane p => rfl
  | purgeAll => rfl
  | getWavefronts q => rfl
  | change p prop => rfl

theorem sound_run : ∀ (ops : List (Op κ W)) {m : OpticalModel κ W} {o : Overrides κ W},
    Sound level depth m o → Sound level depth (m.run depth ops) (ops.foldl m.override o)
  | [], _, _, h => h
  | op :: ops, m, o, h => by
    have hrest := sound_run ops (sound_exec h op)
    rw [override_congr (graph_exec m depth op)] at hrest
    exact hrest

omit [DecidableEq κ] in
theorem Registered.cached [DecidableEq κ] (h : Registered m) : m.cachedWavefronts = fun _ => none := by
  induction h with
  | new => rfl
  | plane _ _ _ _ ih => exact ih

/-- Without a cycle the planes are numbered, below the number of planes. -/
theorem Registered.sound (h : Registered m) (hc : ¬ Cyclic m.Edge) :
    ∃ level : κ → Nat, ∀ depth, m.planes.length < depth → Sound level depth m fun _ => none := by
  have hwithin : ¬ Cyclic (Within m.Edge m.planes) := by
    rwa [cyclic_within_iff fun _ _ => edge_mem_planes]
  obtain ⟨level, hlevel, hle⟩ := exists_level m.planes.length m.planes (Nat.le_refl _) hwithin
  refine ⟨level, fun depth hd => ⟨h.wired, fun p q hpq => ?_, fun p => ?_, ?_⟩⟩
  · obtain ⟨hp, hq⟩ := edge_mem_planes hpq
    exact hlevel p q ⟨hp, hq, hpq⟩
  · exact Nat.lt_of_le_of_lt (hle p) hd
  · rw [h.cached]
    exact .empty

end OpticalModel

open OpticalModel

/-- **Caching is invisible.** Of every acyclic graph of planes, whatever the
propagators, after every sequence of operations: `getWavefronts` returns, or
raises, what the plane evaluates to from scratch with the wavefronts that were
set and still count; and `propagate` does so with the given wavefronts alone,
and leaves the cache as it was, also when it raises. -/
theorem get_eq_evaluate {m : OpticalModel κ W} (hm : Registered m) (hc : ¬ Cyclic m.Edge) {depth : Nat}
    (hd : m.planes.length < depth) (ops : List (OpticalModel.Op κ W)) :
    let m' := m.run depth ops
    (∀ q n, m.planes.length < n →
      (m'.getWavefronts depth q).1 = m'.evaluate (m.overridden ops) n q) ∧
    ∀ input output wavefronts,
      (m'.propagate depth input output wavefronts).2.cachedWavefronts = m'.cachedWavefronts ∧
      (m'.propagate depth input output wavefronts).1 = (m'.evaluate
        (Function.update (fun _ => none) input (some wavefronts.asList)) depth output).map .ofList := by
  intro m'
  obtain ⟨level, hsound⟩ := hm.sound hc
  have h : Sound level depth m' (m.overridden ops) := sound_run ops (hsound depth hd)
  refine ⟨fun q n hn => ?_, fun input output wavefronts => ⟨?_, ?_⟩⟩
  · rw [h.getWavefronts q |>.1]
    exact Rules.eval_stable h.wired.inputsFrom h.leveled _ _ _ q (h.deep q) ((hsound n hn).deep q)
  · rw [propagate_snd]
  · have honly : m'.override (fun _ => none) (.setWavefronts input wavefronts) =
        Function.update (fun _ => none) input (some wavefronts.asList) := by
      funext q
      by_cases hq : q = input
      · subst hq; simp [override]
      · simp [override, hq]
    have hempty : Sound level depth { m' with cachedWavefronts := fun _ => none } fun _ => none :=
      h.recached .empty
    obtain ⟨m₁, hset, hrules, h₁⟩ := hempty.setWavefronts input wavefronts
    have hget : (m₁.getWavefronts depth output).1 = m'.evaluate
        (Function.update (fun _ => none) input (some wavefronts.asList)) depth output := by
      rw [← honly, (h₁.getWavefronts output).1]
      unfold evaluate
      rw [hrules]
      rfl
    rw [← hget]
    simp only [propagate, temporaryCache, hset]
    split <;> rename_i heq <;> rw [heq] <;> rfl

/-- Light at plane 0, a plane that doubles it and one that adds both. -/
def diamond : OpticalModel Nat Nat :=
  (OpticalModel.new.registerPlane 1 [0] fun
    | [w] => .ok (2 * w)
    | _ => .error "TypeError").registerPlane 2 [0, 1] fun
    | [v, w] => .ok (v + w)
    | _ => .error "TypeError"

def relit : List (OpticalModel.Op Nat Nat) :=
  [.setWavefronts 0 (.one 3), .getWavefronts 2, .setWavefronts 0 (.one 5)]

theorem get_eq_evaluate_diamond :
    ((diamond.run 4 relit).getWavefronts 4 2).1 = .ok [15] ∧
      ((diamond.run 4 relit).getWavefronts 4 2).1 =
        (diamond.run 4 relit).evaluate (diamond.overridden relit) 4 2 := by
  have hlt : ∀ a b, diamond.Edge a b → a < b := by
    intro a b hab
    simp only [Edge, diamond, registerPlane, OpticalModel.new, List.map_cons, List.map_nil,
      List.nil_append, List.mem_cons, List.mem_append, Prod.mk.injEq, List.not_mem_nil, or_false] at hab
    omega
  have hc : ¬ Cyclic diamond.Edge := by
    rintro ⟨v, hv⟩
    have hvv : Relation.TransGen (· < ·) v v := Relation.TransGen.mono hlt v v hv
    rw [Relation.transGen_eq_self (r := (· < · : Nat → Nat → Prop))] at hvv
    exact Nat.lt_irrefl v hvv
  have hreg : Registered diamond := .plane (.plane .new 1 _ _) 2 _ _
  exact ⟨rfl, (get_eq_evaluate hreg hc (by decide) relit).1 2 4 (by decide)⟩

end Catkit2.L5
