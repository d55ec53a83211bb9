import Catkit2.Core.LTS
import Mathlib.Data.List.Nodup
import Mathlib.Logic.Function.Basic

/-!
# The simulator's callbacks and cameras (catkit2/simulator/simulator.py)

The simulator takes callbacks from a queue in the order of their times and
runs them. A camera that is acquiring keeps itself going: a reset schedules
the readout at the end of the exposure, the readout the next reset. Starting
and ending an acquisition are callbacks too.

Commands and iterations are executed one at a time. The order of times, their
sums and differences and what a camera integrates are parameters
(`Scalars`); nothing is assumed of them, a time may be a nan.

* `inv_step`: no order of commands and iterations gives a camera two pending
  callbacks.
* `one_chain_of_fresh_starts`: a camera that is acquiring has one, as long as no
  acquisition is started on a camera that is already acquiring.
-/
namespace Catkit2.L5

variable {κ τ P : Type} [DecidableEq κ] [DecidableEq τ]

/-! ## Callbacks -/

/-- What a callback does: the closures made at simulator.py:229, 261, 299, 331. -/
inductive Func (κ τ : Type) where
  | start (camera : κ) (integrationTime frameInterval : τ)
  | stop (camera : κ)
  | reset (camera : κ)
  | readout (camera : κ) (integrationTime frameInterval : τ)
  deriving DecidableEq

/-- The camera that a reset or a readout keeps going. -/
def Func.chained : Func κ τ → Option κ
  | .reset camera | .readout camera _ _ => some camera
  | _ => none

/-- mirrors catkit2/simulator/simulator.py:11-34 -/
structure Callback (κ τ : Type) where
  time : τ
  id : Nat
  func : Func κ τ
  deriving DecidableEq

/-- Arithmetic on times, and what a camera integrates. -/
structure Scalars (τ P : Type) where
  lt : τ → τ → Bool
  isNan : τ → Bool
  add : τ → τ → τ
  sub : τ → τ → τ
  zero : P
  integrate : P → P → τ → P

namespace Callback

/-- `<` of the tuples; ids differ, so the functions are never compared. -/
def before (n : Scalars τ P) (a b : Callback κ τ) : Bool :=
  if a.time = b.time then decide (a.id < b.id) else n.lt a.time b.time

/-- `Callback.__eq__`, of which `list.index` is spared where both are the same object.
mirrors catkit2/simulator/simulator.py:33-34 -/
def same (a b : Callback κ τ) : Bool := decide (a.time = b.time ∧ a.id = b.id)

/-- `cb` may be what `heapq.heappop` takes: the least, or any where the queue
cannot be ordered. -/
def isNext (n : Scalars τ P) (callbacks : List (Callback κ τ)) (cb : Callback κ τ) : Bool :=
  decide (cb ∈ callbacks) &&
    (callbacks.all (fun c => !c.before n cb) || callbacks.any fun c => n.isNan c.time)

/-- A reset or readout of the camera. -/
def Of (cb : Callback κ τ) (camera : κ) : Prop := cb.func.chained = some camera

instance (cb : Callback κ τ) (camera : κ) : Decidable (cb.Of camera) := by
  unfold Of; exact inferInstance

end Callback

/-! ## The simulator -/

/-- `images` is what `camera_readout` was called with, in order.
mirrors catkit2/simulator/simulator.py:66-94 -/
structure Simulator (κ τ P : Type) where
  callbacks : List (Callback κ τ)
  callbackCounter : Nat
  time : τ
  integratingCameras : κ → Option (τ × τ)
  cameraIntegratedPower : κ → Option P
  cameraCallbacks : κ → Option (Callback κ τ)
  images : List (κ × P)

namespace Simulator

/-- `t₀` is the zero that the constructor submits. -/
def new (t₀ : τ) : Simulator κ τ P := ⟨[], 0, t₀, fun _ => none, fun _ => none, fun _ => none, []⟩

/-- mirrors catkit2/simulator/simulator.py:135-160 -/
def addCallback (s : Simulator κ τ P) (func : Func κ τ) (t : Option τ) :
    Callback κ τ × Simulator κ τ P :=
  let callback : Callback κ τ := ⟨t.getD s.time, s.callbackCounter, func⟩
  (callback, { s with
    callbacks := s.callbacks ++ [callback]
    callbackCounter := s.callbackCounter + 1 })

/-- mirrors catkit2/simulator/simulator.py:162-181 -/
def removeCallback (s : Simulator κ τ P) (callback : Callback κ τ) : Simulator κ τ P :=
  { s with callbacks := s.callbacks.eraseP callback.same }

/-- Add a callback of a camera, and remember it. -/
def schedule (s : Simulator κ τ P) (camera : κ) (func : Func κ τ) (t : Option τ) : Simulator κ τ P :=
  let (callback, s) := s.addCallback func t
  { s with cameraCallbacks := Function.update s.cameraCallbacks camera (some callback) }

/-- Cancel the callback that is remembered for a camera.
mirrors catkit2/simulator/simulator.py:232-235 -/
def cancelCallback (s : Simulator κ τ P) (camera : κ) : Simulator κ τ P :=
  match s.cameraCallbacks camera with
  | some callback =>
    let s := s.removeCallback callback
    { s with cameraCallbacks := Function.update s.cameraCallbacks camera none }
  | none => s

/-- mirrors catkit2/simulator/simulator.py:229-245 -/
def startCallback (s : Simulator κ τ P) (camera : κ) (integrationTime frameInterval : τ) : Simulator κ τ P :=
  let s := s.cancelCallback camera
  let wasAlreadyIntegrating := (s.integratingCameras camera).isSome
  let s := { s with
    integratingCameras := Function.update s.integratingCameras camera (some (integrationTime, frameInterval)) }
  if !wasAlreadyIntegrating then s.schedule camera (.reset camera) none else s

/-- mirrors catkit2/simulator/simulator.py:331-334 -/
def stopCallback (s : Simulator κ τ P) (camera : κ) : Simulator κ τ P :=
  { s with integratingCameras := Function.update s.integratingCameras camera none }

/-- mirrors catkit2/simulator/simulator.py:260-279 -/
def resetCallback (n : Scalars τ P) (s : Simulator κ τ P) (camera : κ) (t : τ) : Simulator κ τ P :=
  match s.integratingCameras camera with
  | none => s  -- camera has stopped
  | some (integrationTime, frameInterval) =>
    let s := { s with cameraIntegratedPower := Function.update s.cameraIntegratedPower camera (some n.zero) }
    s.schedule camera (.readout camera integrationTime frameInterval) (some (n.add t integrationTime))

/-- mirrors catkit2/simulator/simulator.py:298-316 -/
def readoutCallback (n : Scalars τ P) (s : Simulator κ τ P) (camera : κ)
    (integrationTime frameInterval t : τ) : Simulator κ τ P :=
  match s.cameraIntegratedPower camera with
  | none => s
  | some power =>
    let s := { s with
      images := s.images ++ [(camera, power)]
      cameraIntegratedPower := Function.update s.cameraIntegratedPower camera none }
    match s.integratingCameras camera with
    | none => s
    | some _ => s.schedule camera (.reset camera) (some (n.add (n.sub t integrationTime) frameInterval))

def call (n : Scalars τ P) (s : Simulator κ τ P) (cb : Callback κ τ) : Simulator κ τ P :=
  match cb.func with
  | .start camera integrationTime frameInterval => s.startCallback camera integrationTime frameInterval
  | .stop camera => s.stopCallback camera
  | .reset camera => s.resetCallback n camera cb.time
  | .readout camera integrationTime frameInterval =>
    s.readoutCallback n camera integrationTime frameInterval cb.time

/-- The cameras integrate what was on them when the iteration began. -/
def integrate (n : Scalars τ P) (s : Simulator κ τ P) (cameraImages : κ → P) (dt : τ) : Simulator κ τ P :=
  { s with
    cameraIntegratedPower := fun camera =>
      (s.cameraIntegratedPower camera).map fun power => n.integrate power (cameraImages camera) dt }

/-- The time of the callback that was taken is the simulated time.
mirrors catkit2/simulator/simulator.py:123-130 -/
def advance (n : Scalars τ P) (s : Simulator κ τ P) (cameraImages : κ → P) (cb : Callback κ τ) :
    Simulator κ τ P :=
  { s.integrate n cameraImages (n.sub cb.time s.time) with time := cb.time }

/-- One pass of the loop that takes `cb` from the queue, and puts it back when
that is too fast; `allowed` is `max_time_factor * (time.time() - last_update_time)`.
mirrors catkit2/simulator/simulator.py:99-133 -/
def iterate (n : Scalars τ P) (s : Simulator κ τ P) (cameraImages : κ → P) (allowed : τ)
    (cb : Callback κ τ) : Simulator κ τ P :=
  let popped := { s with callbacks := s.callbacks.erase cb }
  if n.lt allowed (n.sub cb.time s.time) then { popped with callbacks := popped.callbacks ++ [cb] }
  else call n (popped.advance n cameraImages cb) cb

end Simulator

/-! ## Runs -/

inductive SimulatorStep (κ τ P : Type) where
  | startCameraAcquisition (camera : κ) (integrationTime frameInterval : τ)
  | endCameraAcquisition (camera : κ)
  /-- An iteration without callbacks. -/
  | idle
  | iterate (cameraImages : κ → P) (allowed : τ) (cb : Callback κ τ)

namespace Simulator

def step (n : Scalars τ P) (s : Simulator κ τ P) : SimulatorStep κ τ P → Option (Simulator κ τ P)
  | .startCameraAcquisition camera integrationTime frameInterval =>
    some (s.addCallback (.start camera integrationTime frameInterval) none).2
  | .endCameraAcquisition camera => some (s.addCallback (.stop camera) none).2
  | .idle => if s.callbacks = [] then some s else none
  | .iterate cameraImages allowed cb =>
    if cb.isNext n s.callbacks then some (s.iterate n cameraImages allowed cb) else none

def lts (n : Scalars τ P) (t₀ : τ) : LTS (Simulator κ τ P) (SimulatorStep κ τ P) :=
  .ofFn (· = new t₀) (step n)

/-- The pending resets and readouts of a camera. -/
def pending (s : Simulator κ τ P) (camera : κ) : Nat := s.callbacks.countP fun c => c.Of camera

/-- One chain of callbacks for each camera that is acquiring, at most one for
every other. -/
def OneChain (s : Simulator κ τ P) : Prop :=
  ∀ camera, s.pending camera ≤ 1 ∧ ((s.integratingCameras camera).isSome → s.pending camera = 1)

/-- The callback starts no camera that is acquiring. -/
def StartsFresh (s : Simulator κ τ P) : Func κ τ → Prop
  | .start camera _ _ => s.integratingCameras camera = none
  | _ => True

/-- Nor does the step, which may put the callback back. -/
def FreshStart (n : Scalars τ P) (s : Simulator κ τ P) : SimulatorStep κ τ P → Prop
  | .iterate _ allowed cb => n.lt allowed (n.sub cb.time s.time) = true ∨ s.StartsFresh cb.func
  | _ => True

instance (s : Simulator κ τ P) (func : Func κ τ) : Decidable (s.StartsFresh func) := by
  unfold StartsFresh; split <;> exact inferInstance

instance (n : Scalars τ P) (s : Simulator κ τ P) (l : SimulatorStep κ τ P) :
    Decidable (FreshStart n s l) := by
  unfold FreshStart; split <;> exact inferInstance

/-! ## The invariant -/

/-- Ids are not used twice; every pending reset or readout is the callback that
is remembered for its camera, and a readout finds something to read out. -/
structure Inv (s : Simulator κ τ P) : Prop where
  fresh : ∀ c ∈ s.callbacks, c.id < s.callbackCounter
  unique : (s.callbacks.map Callback.id).Nodup
  past : ∀ camera cb, s.cameraCallbacks camera = some cb → cb.id < s.callbackCounter
  own : ∀ camera cb, s.cameraCallbacks camera = some cb →
    cb.Of camera ∧ ∀ c ∈ s.callbacks, c.id = cb.id → c = cb
  remembered : ∀ c ∈ s.callbacks, ∀ camera, c.Of camera → s.cameraCallbacks camera = some c
  powered : ∀ c ∈ s.callbacks, ∀ camera integrationTime frameInterval,
    c.func = .readout camera integrationTime frameInterval → (s.cameraIntegratedPower camera).isSome

/-- Nothing is pending for the camera. -/
def Quiet (s : Simulator κ τ P) (camera : κ) : Prop := ∀ c ∈ s.callbacks, ¬ c.Of camera

/-- Something is pending for every camera that is acquiring. -/
def Chained (s : Simulator κ τ P) : Prop :=
  ∀ camera, (s.integratingCameras camera).isSome → ∃ c ∈ s.callbacks, c.Of camera

variable {n : Scalars τ P} {s : Simulator κ τ P}

omit [DecidableEq τ] in
theorem pending_eq_zero {camera : κ} : s.pending camera = 0 ↔ s.Quiet camera := by
  unfold pending Quiet
  simp only [List.countP_eq_zero, decide_eq_true_eq]

omit [DecidableEq τ] in
/-- No camera has two pending callbacks: both would be the one that is remembered. -/
theorem Inv.pending_le (h : Inv s) (camera : κ) : s.pending camera ≤ 1 := by
  have hsame : ∀ a ∈ s.callbacks.filter (fun c => c.Of camera),
      ∀ b ∈ s.callbacks.filter (fun c => c.Of camera), a = b := by
    intro a ha b hb
    simp only [List.mem_filter, decide_eq_true_eq] at ha hb
    have h1 := h.remembered a ha.1 camera ha.2
    have h2 := h.remembered b hb.1 camera hb.2
    exact Option.some.inj (h1.symm.trans h2)
  have hnodup : (s.callbacks.filter fun c => c.Of camera).Nodup := (List.Nodup.of_map _ h.unique).filter _
  unfold pending
  rw [List.countP_eq_length_filter]
  generalize s.callbacks.filter (fun c => c.Of camera) = l at hsame hnodup
  match l with
  | [] => exact Nat.zero_le 1
  | [a] => exact Nat.le_refl 1
  | a :: b :: l =>
    have hab := hsame a List.mem_cons_self b (List.mem_cons_of_mem _ List.mem_cons_self)
    exact absurd (hab ▸ List.mem_cons_self) (List.nodup_cons.mp hnodup).1

omit [DecidableEq τ] in
theorem Inv.oneChain (h : Inv s) (hc : s.Chained) : s.OneChain := by
  intro camera
  have hle := h.pending_le camera
  refine ⟨hle, fun hint => ?_⟩
  obtain ⟨c, hmem, hof⟩ := hc camera hint
  have hne : s.pending camera ≠ 0 := fun h0 => pending_eq_zero.mp h0 c hmem hof
  omega

/-! ## What the queue operations do -/

omit [DecidableEq κ] [DecidableEq τ] in
theorem Inv.ids_add (h : Inv s) (func : Func κ τ) (t : Option τ) :
    (∀ c ∈ (s.addCallback func t).2.callbacks, c.id < s.callbackCounter + 1) ∧
      ((s.addCallback func t).2.callbacks.map Callback.id).Nodup := by
  refine ⟨?_, ?_⟩
  · intro c hc
    rcases List.mem_append.mp hc with hc | hc
    · exact Nat.lt_succ_of_lt (h.fresh c hc)
    · rw [List.mem_singleton.mp hc]
      exact Nat.lt_succ_self _
  · simp only [addCallback, List.map_append, List.map_cons, List.map_nil]
    refine h.unique.append (List.nodup_singleton _) ?_
    intro i hi hi'
    obtain ⟨c, hc, rfl⟩ := List.mem_map.mp hi
    have hid := List.mem_singleton.mp hi'
    have := h.fresh c hc
    omega

omit [DecidableEq κ] [DecidableEq τ] in
/-- A callback of no camera. -/
theorem Inv.add (h : Inv s) {func : Func κ τ} (t : Option τ) (hfunc : func.chained = none) :
    Inv (s.addCallback func t).2 := by
  obtain ⟨hfresh, hunique⟩ := h.ids_add func t
  have hnot : ∀ c camera, c = (s.addCallback func t).1 → ¬ c.Of camera := by
    rintro _ camera rfl hof
    unfold Callback.Of at hof
    simp only [addCallback, hfunc] at hof
    cases hof
  refine ⟨hfresh, hunique, fun camera cb hcb => Nat.lt_succ_of_lt (h.past camera cb hcb),
    fun camera cb hcb => ⟨(h.own camera cb hcb).1, fun c hc hid => ?_⟩, fun c hc camera hof => ?_,
    fun c hc camera it fi hf => ?_⟩
  · rcases List.mem_append.mp hc with hc | hc
    · exact (h.own camera cb hcb).2 c hc hid
    · have hlt := h.past camera cb hcb
      rw [← hid, List.mem_singleton.mp hc] at hlt
      exact absurd hlt (Nat.lt_irrefl _)
  · rcases List.mem_append.mp hc with hc | hc
    · exact h.remembered c hc camera hof
    · exact absurd hof (hnot c camera (List.mem_singleton.mp hc))
  · rcases List.mem_append.mp hc with hc | hc
    · exact h.powered c hc camera it fi hf
    · refine absurd ?_ (hnot c camera (List.mem_singleton.mp hc))
      unfold Callback.Of
      rw [hf]
      rfl

omit [DecidableEq τ] in
/-- A callback of a camera for which nothing is pending. -/
theorem Inv.schedule (h : Inv s) {camera : κ} {func : Func κ τ} (t : Option τ)
    (hfunc : func.chained = some camera) (hquiet : s.Quiet camera)
    (hpower : (s.cameraIntegratedPower camera).isSome ∨ func = .reset camera) :
    Inv (s.schedule camera func t) := by
  obtain ⟨hfresh, hunique⟩ := h.ids_add func t
  refine ⟨hfresh, hunique, fun camera' cb hcb => ?_, fun camera' cb hcb => ?_, fun c hc camera' hof => ?_,
    fun c hc camera' it fi hf => ?_⟩
  · by_cases hcam : camera' = camera
    · subst hcam
      simp only [Simulator.schedule, Function.update_self] at hcb
      cases hcb
      exact Nat.lt_succ_self _
    · simp only [Simulator.schedule, Function.update_of_ne hcam] at hcb
      exact Nat.lt_succ_of_lt (h.past camera' cb hcb)
  · by_cases hcam : camera' = camera
    · subst hcam
      simp only [Simulator.schedule, Function.update_self] at hcb
      cases hcb
      refine ⟨hfunc, fun c hc hid => ?_⟩
      rcases List.mem_append.mp hc with hc | hc
      · have hlt := h.fresh c hc
        rw [hid] at hlt
        exact absurd hlt (Nat.lt_irrefl _)
      · exact List.mem_singleton.mp hc
    · simp only [Simulator.schedule, Function.update_of_ne hcam] at hcb
      refine ⟨(h.own camera' cb hcb).1, fun c hc hid => ?_⟩
      rcases List.mem_append.mp hc with hc | hc
      · exact (h.own camera' cb hcb).2 c hc hid
      · have hlt := h.past camera' cb hcb
        rw [← hid, List.mem_singleton.mp hc] at hlt
        exact absurd hlt (Nat.lt_irrefl _)
  · rcases List.mem_append.mp hc with hc | hc
    · have hne : camera' ≠ camera := fun he => hquiet c hc (he ▸ hof)
      simp only [Simulator.schedule, Function.update_of_ne hne]
      exact h.remembered c hc camera' hof
    · rw [List.mem_singleton.mp hc] at hof ⊢
      have hcam : camera' = camera := Option.some.inj (hof.symm.trans hfunc)
      subst hcam
      exact Function.update_self _ _ _
  · rcases List.mem_append.mp hc with hc | hc
    · exact h.powered c hc camera' it fi hf
    · rw [List.mem_singleton.mp hc] at hf
      have hf' : func = .readout camera' it fi := hf
      subst hf'
      have hcam : camera' = camera := Option.some.inj hfunc
      subst hcam
      rcases hpower with hpower | hreset
      · exact hpower
      · cases hreset

omit [DecidableEq κ] [DecidableEq τ] in
/-- Dropping callbacks from the queue. -/
theorem Inv.sublist (h : Inv s) {l : List (Callback κ τ)} (hl : l.Sublist s.callbacks) :
    Inv { s with callbacks := l } :=
  ⟨fun c hc => h.fresh c (hl.mem hc), (hl.map _).nodup h.unique, h.past,
    fun camera cb hcb => ⟨(h.own camera cb hcb).1, fun c hc => (h.own camera cb hcb).2 c (hl.mem hc)⟩,
    fun c hc => h.remembered c (hl.mem hc), fun c hc => h.powered c (hl.mem hc)⟩

/-- Putting a callback back at the end. -/
theorem Inv.rotate (h : Inv s) {cb : Callback κ τ} (hcb : cb ∈ s.callbacks) :
    Inv { s with callbacks := s.callbacks.erase cb ++ [cb] } := by
  have hperm : (s.callbacks.erase cb ++ [cb]).Perm s.callbacks :=
    (List.perm_append_singleton cb _).trans (List.perm_cons_erase hcb).symm
  exact ⟨fun c hc => h.fresh c (hperm.mem_iff.mp hc), (hperm.map _).nodup_iff.mpr h.unique, h.past,
    fun camera cb hcb => ⟨(h.own camera cb hcb).1, fun c hc => (h.own camera cb hcb).2 c (hperm.mem_iff.mp hc)⟩,
    fun c hc => h.remembered c (hperm.mem_iff.mp hc), fun c hc => h.powered c (hperm.mem_iff.mp hc)⟩

/-- Once the callback of a camera is taken from the queue nothing is pending for it. -/
theorem Inv.quiet_erase (h : Inv s) {cb : Callback κ τ} {camera : κ} (hcb : cb ∈ s.callbacks)
    (hof : cb.Of camera) : Quiet { s with callbacks := s.callbacks.erase cb } camera := by
  intro c hc hof'
  obtain ⟨hne, hmem⟩ := (List.Nodup.of_map _ h.unique).mem_erase_iff.mp hc
  have h1 := h.remembered c hmem camera hof'
  have h2 := h.remembered cb hcb camera hof
  exact hne (Option.some.inj (h1.symm.trans h2))

/-- `remove_callback` and forgetting: nothing is pending for the camera, and what is
pending for the others stays. -/
theorem Inv.cancel (h : Inv s) (camera : κ) : Inv (s.cancelCallback camera) ∧
    (s.cancelCallback camera).Quiet camera ∧
    ∀ c ∈ s.callbacks, ¬ c.Of camera → c ∈ (s.cancelCallback camera).callbacks := by
  unfold cancelCallback
  cases hrem : s.cameraCallbacks camera with
  | none =>
    refine ⟨h, fun c hc hof => ?_, fun c hc _ => hc⟩
    rw [h.remembered c hc camera hof] at hrem
    cases hrem
  | some cb =>
    obtain ⟨hof, hown⟩ := h.own camera cb hrem
    have hsub : (s.callbacks.eraseP cb.same).Sublist s.callbacks := List.eraseP_sublist
    have hquiet : ∀ c ∈ s.callbacks.eraseP cb.same, ¬ c.Of camera := by
      intro c hc hof'
      have hsame := Option.some.inj ((h.remembered c (hsub.mem hc) camera hof').symm.trans hrem)
      subst hsame
      -- the first callback that equals `c` is `c`, and there is no second one
      obtain ⟨b, l₁, l₂, -, hb, hl, herase⟩ :=
        List.exists_of_eraseP (p := c.same) (hsub.mem hc) (by simp [Callback.same])
      rw [herase] at hc
      have hu := h.unique
      rw [hl, List.map_append, List.map_cons, List.nodup_middle, List.nodup_cons] at hu
      have hid : c.id = b.id := (of_decide_eq_true hb).2
      rw [← hid, ← List.map_append] at hu
      exact hu.1 (List.mem_map_of_mem hc)
    have hs := h.sublist hsub
    refine ⟨⟨hs.fresh, hs.unique, fun camera' cb' hcb' => ?_, fun camera' cb' hcb' => ?_,
      fun c hc camera' hof' => ?_, hs.powered⟩, hquiet, fun c hc hnot => ?_⟩
    · by_cases hcam : camera' = camera
      · subst hcam; simp only [Function.update_self] at hcb'; cases hcb'
      · simp only [Function.update_of_ne hcam] at hcb'
        exact hs.past camera' cb' hcb'
    · by_cases hcam : camera' = camera
      · subst hcam; simp only [Function.update_self] at hcb'; cases hcb'
      · simp only [Function.update_of_ne hcam] at hcb'
        exact hs.own camera' cb' hcb'
    · have hne : camera' ≠ camera := fun he => hquiet c hc (he ▸ hof')
      simp only [Function.update_of_ne hne]
      exact hs.remembered c hc camera' hof'
    · refine (List.mem_eraseP_of_neg ?_).mpr hc
      intro hsame
      have hid : cb.id = c.id := (of_decide_eq_true hsame).2
      exact hnot (hown c hc hid.symm ▸ hof)

/-! ## Running a callback -/

omit [DecidableEq κ] [DecidableEq τ] in
theorem Inv.advance (h : Inv s) (n : Scalars τ P) (cameraImages : κ → P) (cb : Callback κ τ) :
    Inv (s.advance n cameraImages cb) := by
  refine ⟨h.fresh, h.unique, h.past, h.own, h.remembered, fun c hc camera it fi hf => ?_⟩
  have hsome := h.powered c hc camera it fi hf
  simp only [Simulator.advance, Simulator.integrate, Option.isSome_map]
  exact hsome

omit [DecidableEq τ] in
theorem exists_schedule (s : Simulator κ τ P) {camera : κ} {func : Func κ τ} (t : Option τ)
    (hfunc : func.chained = some camera) : ∃ c ∈ (s.schedule camera func t).callbacks, c.Of camera :=
  ⟨_, List.mem_append_right _ List.mem_cons_self, hfunc⟩

theorem inv_startCallback (h : Inv s) (camera : κ) (it fi : τ) : Inv (s.startCallback camera it fi) := by
  obtain ⟨hc, hq, -⟩ := h.cancel camera
  have hmarked : Inv { s.cancelCallback camera with
      integratingCameras := Function.update (s.cancelCallback camera).integratingCameras camera (some (it, fi)) } :=
    ⟨hc.fresh, hc.unique, hc.past, hc.own, hc.remembered, hc.powered⟩
  unfold startCallback
  dsimp only
  split
  · exact hmarked.schedule none rfl hq (.inr rfl)
  · exact hmarked

omit [DecidableEq τ] in
/-- The readout that is scheduled has the power that was reset. -/
theorem inv_resetCallback (h : Inv s) {camera : κ} (hq : s.Quiet camera) (t : τ) :
    Inv (s.resetCallback n camera t) := by
  unfold resetCallback
  split
  · exact h
  · have hreset : Inv { s with
        cameraIntegratedPower := Function.update s.cameraIntegratedPower camera (some n.zero) } := by
      refine ⟨h.fresh, h.unique, h.past, h.own, h.remembered, fun c hc camera' it' fi' hf' => ?_⟩
      by_cases hcam : camera' = camera
      · subst hcam
        simp only [Function.update_self, Option.isSome_some]
      · simp only [Function.update_of_ne hcam]
        exact h.powered c hc camera' it' fi' hf'
    exact hreset.schedule _ rfl hq (.inl (by simp only [Function.update_self, Option.isSome_some]))

omit [DecidableEq τ] in
/-- No other readout of the camera is pending that would miss the power. -/
theorem inv_readoutCallback (h : Inv s) {camera : κ} (hq : s.Quiet camera) (it fi t : τ) :
    Inv (s.readoutCallback n camera it fi t) := by
  unfold readoutCallback
  split
  · exact h
  · rename_i power hpower
    have hread : Inv { s with
        images := s.images ++ [(camera, power)]
        cameraIntegratedPower := Function.update s.cameraIntegratedPower camera none } := by
      refine ⟨h.fresh, h.unique, h.past, h.own, h.remembered, fun c hc camera' it' fi' hf' => ?_⟩
      have hne : camera' ≠ camera := by
        rintro rfl
        exact hq c hc (by unfold Callback.Of; rw [hf']; rfl)
      simp only [Function.update_of_ne hne]
      exact h.powered c hc camera' it' fi' hf'
    dsimp only
    split
    · exact hread
    · exact hread.schedule _ rfl hq (.inr rfl)

/-- The callback that runs is no longer in the queue. -/
theorem inv_call (h : Inv s) (cb : Callback κ τ) (hquiet : ∀ camera, cb.Of camera → s.Quiet camera) :
    Inv (call n s cb) := by
  unfold call
  split
  · exact inv_startCallback h _ _ _
  · exact ⟨h.fresh, h.unique, h.past, h.own, h.remembered, h.powered⟩
  · rename_i camera hf
    exact inv_resetCallback h (hquiet camera (by unfold Callback.Of; rw [hf]; rfl)) _
  · rename_i camera it fi hf
    exact inv_readoutCallback h (hquiet camera (by unfold Callback.Of; rw [hf]; rfl)) it fi _

/-- Every other camera that is acquiring has something pending. -/
def ChainedBut (s : Simulator κ τ P) (camera : κ) : Prop :=
  ∀ camera', camera' ≠ camera → (s.integratingCameras camera').isSome → ∃ c ∈ s.callbacks, c.Of camera'

theorem chained_startCallback (h : Inv s) {camera : κ} (it fi : τ)
    (hnone : s.integratingCameras camera = none) (hch : s.Chained) :
    (s.startCallback camera it fi).Chained := by
  intro camera' hint
  obtain ⟨-, -, hkeep⟩ := h.cancel camera
  have hsame : (s.cancelCallback camera).integratingCameras = s.integratingCameras := by
    unfold cancelCallback
    split <;> rfl
  unfold startCallback at hint ⊢
  simp only [hsame, hnone, Option.isSome_none, Bool.not_false, if_true] at hint ⊢
  by_cases hcam : camera' = camera
  · subst hcam
    exact exists_schedule _ none rfl
  · simp only [schedule, addCallback, Function.update_of_ne hcam] at hint
    obtain ⟨c, hc, hof⟩ := hch camera' hint
    have hcam' : ¬ c.Of camera := fun he => hcam (Option.some.inj (hof.symm.trans he))
    exact ⟨c, List.mem_append_left _ (hkeep c hc hcam'), hof⟩

omit [DecidableEq τ] in
theorem chained_stopCallback (hch : s.Chained) (camera : κ) : (s.stopCallback camera).Chained := by
  intro camera' hint
  have hne : camera' ≠ camera := by
    rintro rfl
    simp only [stopCallback, Function.update_self, Option.isSome_none, Bool.false_eq_true] at hint
  simp only [stopCallback, Function.update_of_ne hne] at hint
  exact hch camera' hint

omit [DecidableEq τ] in
/-- A reset goes on with a readout. -/
theorem chained_resetCallback {camera : κ} (hch : s.ChainedBut camera) (t : τ) :
    (s.resetCallback n camera t).Chained := by
  intro camera' hint
  unfold resetCallback at hint ⊢
  by_cases hcam : camera' = camera
  · subst hcam
    split at hint
    · rename_i hnone
      rw [hnone] at hint
      cases hint
    · exact exists_schedule _ _ rfl
  · have hint' : (s.integratingCameras camera').isSome := by
      split at hint <;> exact hint
    obtain ⟨c, hc, hof⟩ := hch camera' hcam hint'
    split
    · exact ⟨c, hc, hof⟩
    · exact ⟨c, List.mem_append_left _ hc, hof⟩

omit [DecidableEq τ] in
/-- A readout goes on with a reset. -/
theorem chained_readoutCallback {camera : κ} (hch : s.ChainedBut camera)
    (hpower : (s.cameraIntegratedPower camera).isSome) (it fi t : τ) :
    (s.readoutCallback n camera it fi t).Chained := by
  intro camera' hint
  obtain ⟨power, hsome⟩ := Option.isSome_iff_exists.mp hpower
  unfold readoutCallback at hint ⊢
  simp only [hsome] at hint ⊢
  by_cases hcam : camera' = camera
  · subst hcam
    split at hint
    · rename_i hnone
      simp only [hnone, Option.isSome_none, Bool.false_eq_true] at hint
    · exact exists_schedule _ _ rfl
  · have hint' : (s.integratingCameras camera').isSome := by
      split at hint <;> exact hint
    obtain ⟨c, hc, hof⟩ := hch camera' hcam hint'
    split
    · exact ⟨c, hc, hof⟩
    · exact ⟨c, List.mem_append_left _ hc, hof⟩

/-- Running a callback keeps the chains going: a reset and a readout extend their own. -/
theorem chained_call (h : Inv s) (cb : Callback κ τ)
    (hothers : ∀ camera, (s.integratingCameras camera).isSome → ¬ cb.Of camera →
      ∃ c ∈ s.callbacks, c.Of camera)
    (hpower : ∀ camera it fi, cb.func = .readout camera it fi → (s.cameraIntegratedPower camera).isSome)
    (hfresh : ∀ camera it fi, cb.func = .start camera it fi → s.integratingCameras camera = none) :
    (call n s cb).Chained := by
  have hchained : cb.func.chained = none → s.Chained := by
    intro hnone camera hint
    refine hothers camera hint fun hof => ?_
    rw [Callback.Of, hnone] at hof
    cases hof
  have hbut : ∀ camera, cb.func.chained = some camera → s.ChainedBut camera := by
    intro camera hsome camera' hne hint
    refine hothers camera' hint fun hof => ?_
    rw [Callback.Of, hsome] at hof
    exact hne (Option.some.inj hof).symm
  unfold call
  split
  · rename_i camera it fi hf
    exact chained_startCallback h it fi (hfresh camera it fi hf) (hchained (by rw [hf]; rfl))
  · rename_i camera hf
    exact chained_stopCallback (hchained (by rw [hf]; rfl)) camera
  · rename_i camera hf
    exact chained_resetCallback (hbut camera (by rw [hf]; rfl)) _
  · rename_i camera it fi hf
    exact chained_readoutCallback (hbut camera (by rw [hf]; rfl)) (hpower camera it fi hf) it fi _

/-! ## Steps -/

theorem mem_of_isNext {cb : Callback κ τ} {l : List (Callback κ τ)} (h : cb.isNext n l = true) : cb ∈ l := by
  unfold Callback.isNext at h
  rw [Bool.and_eq_true] at h
  exact of_decide_eq_true h.1

/-- **What a step does.** -/
theorem step_cases {l : SimulatorStep κ τ P} {s' : Simulator κ τ P} (h : step n s l = some s') :
    (∃ func t, func.chained = none ∧ s' = (s.addCallback func t).2) ∨ s' = s ∨
    ∃ cameraImages allowed cb, l = .iterate cameraImages allowed cb ∧ cb ∈ s.callbacks ∧
      ((n.lt allowed (n.sub cb.time s.time) = true ∧
          s' = { s with callbacks := s.callbacks.erase cb ++ [cb] }) ∨
        (n.lt allowed (n.sub cb.time s.time) = false ∧
          s' = call n (Simulator.advance n { s with callbacks := s.callbacks.erase cb } cameraImages cb) cb)) := by
  cases l with
  | startCameraAcquisition camera it fi =>
    cases h
    exact .inl ⟨.start camera it fi, none, rfl, rfl⟩
  | endCameraAcquisition camera =>
    cases h
    exact .inl ⟨.stop camera, none, rfl, rfl⟩
  | idle =>
    simp only [step] at h
    split at h
    · cases h
      exact .inr (.inl rfl)
    · cases h
  | iterate cameraImages allowed cb =>
    simp only [step] at h
    split at h
    · rename_i hnext
      cases h
      refine .inr (.inr ⟨cameraImages, allowed, cb, rfl, mem_of_isNext hnext, ?_⟩)
      unfold iterate
      cases hfast : n.lt allowed (n.sub cb.time s.time) with
      | true => exact .inl ⟨rfl, by simp only [if_true]⟩
      | false => exact .inr ⟨rfl, by simp only [Bool.false_eq_true, if_false]⟩
    · cases h

/-- The state in which the callback that was taken runs. -/
theorem Inv.popped (h : Inv s) {cb : Callback κ τ} (hcb : cb ∈ s.callbacks) (n : Scalars τ P)
    (cameraImages : κ → P) :
    let s' := Simulator.advance n { s with callbacks := s.callbacks.erase cb } cameraImages cb
    Inv s' ∧ ∀ camera, cb.Of camera → s'.Quiet camera :=
  ⟨(h.sublist List.erase_sublist).advance n cameraImages cb, fun _ hof => h.quiet_erase hcb hof⟩

/-- **Every step**, whatever it runs. -/
theorem inv_step {l : SimulatorStep κ τ P} {s' : Simulator κ τ P} (h : Inv s)
    (hs : step n s l = some s') : Inv s' := by
  obtain ⟨func, t, hfunc, rfl⟩ | rfl | ⟨cameraImages, allowed, cb, rfl, hcb, ⟨-, rfl⟩ | ⟨-, rfl⟩⟩ :=
    step_cases hs
  · exact h.add t hfunc
  · exact h
  · exact h.rotate hcb
  · obtain ⟨hinv, hquiet⟩ := h.popped hcb n cameraImages
    exact inv_call hinv cb hquiet

/-- **Every step** that does not start a camera again. -/
theorem chained_step {l : SimulatorStep κ τ P} {s' : Simulator κ τ P} (h : Inv s) (hc : s.Chained)
    (hfresh : FreshStart n s l) (hs : step n s l = some s') : s'.Chained := by
  obtain ⟨func, t, hfunc, rfl⟩ | rfl | ⟨cameraImages, allowed, cb, rfl, hcb, hrun⟩ := step_cases hs
  · intro camera hint
    obtain ⟨c, hmem, hof⟩ := hc camera hint
    exact ⟨c, List.mem_append_left _ hmem, hof⟩
  · exact hc
  · obtain ⟨-, rfl⟩ | ⟨hfast, rfl⟩ := hrun
    · intro camera hint
      obtain ⟨c, hmem, hof⟩ := hc camera hint
      have hperm :=
        (List.perm_append_singleton cb (s.callbacks.erase cb)).trans (List.perm_cons_erase hcb).symm
      exact ⟨c, hperm.mem_iff.mpr hmem, hof⟩
    · obtain ⟨hinv, -⟩ := h.popped hcb n cameraImages
      refine chained_call hinv cb (fun camera hint hnot => ?_) (fun camera it fi hf => ?_) ?_
      · obtain ⟨c, hmem, hof⟩ := hc camera hint
        have hne : c ≠ cb := fun he => hnot (he ▸ hof)
        exact ⟨c, (List.mem_erase_of_ne hne).mpr hmem, hof⟩
      · have hsome := h.powered cb hcb camera it fi hf
        simp only [Simulator.advance, Simulator.integrate, Option.isSome_map]
        exact hsome
      · intro camera it fi hf
        rcases hfresh with hfast' | hstart
        · rw [hfast] at hfast'
          cases hfast'
        · rw [hf] at hstart
          exact hstart

/-- A start on a camera that is acquiring cancels what is pending for it, and
schedules nothing. -/
theorem quiet_startCallback (h : Inv s) (camera : κ) (it fi : τ)
    (hint : (s.integratingCameras camera).isSome) : (s.startCallback camera it fi).Quiet camera ∧
      ((s.startCallback camera it fi).integratingCameras camera).isSome := by
  obtain ⟨-, hq, -⟩ := h.cancel camera
  have hsame : (s.cancelCallback camera).integratingCameras camera = s.integratingCameras camera := by
    unfold cancelCallback
    split <;> rfl
  unfold startCallback
  simp only [hsame, hint, Bool.not_true, Bool.false_eq_true, if_false, Function.update_self,
    Option.isSome_some, and_true]
  exact hq

/-- **The other way.** Any other step breaks the chain. -/
theorem not_oneChain_step {l : SimulatorStep κ τ P} {s' : Simulator κ τ P} (h : Inv s)
    (hstale : ¬ FreshStart n s l) (hs : step n s l = some s') : ¬ s'.OneChain := by
  cases l with
  | startCameraAcquisition _ _ _ => exact absurd trivial hstale
  | endCameraAcquisition _ => exact absurd trivial hstale
  | idle => exact absurd trivial hstale
  | iterate cameraImages allowed cb =>
    simp only [FreshStart, not_or, Bool.not_eq_true] at hstale
    obtain ⟨hfast, hstart⟩ := hstale
    obtain ⟨camera, it, fi, hf, hint⟩ : ∃ camera it fi, cb.func = .start camera it fi ∧
        s.integratingCameras camera ≠ none := by
      unfold StartsFresh at hstart
      split at hstart
      · rename_i camera it fi hf
        exact ⟨camera, it, fi, hf, hstart⟩
      · exact absurd trivial hstart
    simp only [step] at hs
    split at hs
    · rename_i hnext
      cases hs
      obtain ⟨hinv, -⟩ := h.popped (mem_of_isNext hnext) n cameraImages
      obtain ⟨hq, hsome⟩ := quiet_startCallback hinv camera it fi (Option.isSome_iff_ne_none.mpr hint)
      intro hone
      have hpending := (hone camera).2
      unfold iterate call at hpending
      simp only [hfast, Bool.false_eq_true, if_false, hf] at hpending
      rw [pending_eq_zero.mpr hq] at hpending
      exact Nat.zero_ne_one (hpending hsome)
    · cases hs

/-! ## Runs -/

omit [DecidableEq κ] [DecidableEq τ] in
theorem inv_new (t₀ : τ) : Inv (new t₀ : Simulator κ τ P) := by
  refine ⟨fun c hc => ?_, List.nodup_nil, fun camera cb hcb => ?_, fun camera cb hcb => ?_,
    fun c hc => ?_, fun c hc => ?_⟩
  · cases hc
  · cases hcb
  · cases hcb
  · cases hc
  · cases hc

/-- **Never two chains**, in any run. -/
theorem pending_le_one (t₀ : τ) {s : Simulator κ τ P} (h : (lts n t₀).Reachable s) (camera : κ) :
    s.pending camera ≤ 1 := by
  have hinv : (lts n t₀).Inductive (Inv (κ := κ) (τ := τ) (P := P)) :=
    ⟨fun s hs => hs ▸ inv_new t₀, fun _ _ _ hi hs => inv_step hi hs⟩
  exact (hinv.reachable s h).pending_le camera

end Simulator

open Simulator

/-- **One chain for each camera**, in every run in which no start is run on a
camera that is acquiring: one pending reset or readout if it is acquiring, at
most one if not. Any other iteration breaks this for the camera it starts. -/
theorem one_chain_of_fresh_starts (n : Scalars τ P) (t₀ : τ) (s : Simulator κ τ P)
    (h : ((lts n t₀).restrict (FreshStart n)).Reachable s) :
    s.OneChain ∧ ∀ l s', step n s l = some s' → (s'.OneChain ↔ FreshStart n s l) := by
  have hind : ((lts n t₀).restrict (FreshStart n)).Inductive
      (fun s : Simulator κ τ P => Simulator.Inv s ∧ s.Chained) := by
    refine ⟨fun s hs => ?_, fun s l s' hi hs => ⟨inv_step hi.1 hs.2, chained_step hi.1 hi.2 hs.1 hs.2⟩⟩
    cases hs
    exact ⟨inv_new t₀, fun camera hint => by cases hint⟩
  obtain ⟨hinv, hchained⟩ := hind.reachable s h
  refine ⟨hinv.oneChain hchained, fun l s' hs => ⟨fun hone => ?_, fun hfresh => ?_⟩⟩
  · by_contra hstale
    exact not_oneChain_step hinv hstale hs hone
  · exact (inv_step hinv hs).oneChain (chained_step hinv hchained hfresh hs)

/-- Whole numbers for times and powers. -/
def wholeNumbers : Scalars Int Int where
  lt a b := decide (a < b)
  isNan _ := false
  add := (· + ·)
  sub := (· - ·)
  zero := 0
  integrate power image dt := power + image * dt

/-- One camera is started, and its first exposure begins. -/
def firstExposure : List (SimulatorStep Nat Int Int) :=
  [.startCameraAcquisition 0 1 3, .iterate (fun _ => 5) 0 ⟨0, 0, .start 0 1 3⟩,
    .iterate (fun _ => 5) 0 ⟨0, 1, .reset 0⟩]

theorem one_chain_of_fresh_starts_exposure : ∃ s : Simulator Nat Int Int,
    LTS.exec (LTS.guarded (FreshStart wholeNumbers) (step wholeNumbers)) (new 0) firstExposure = some s ∧
      s.OneChain ∧ s.pending 0 = 1 := by
  obtain ⟨s, hs, hone⟩ : ∃ s : Simulator Nat Int Int, LTS.exec (LTS.guarded (FreshStart wholeNumbers)
      (step wholeNumbers)) (new 0) firstExposure = some s ∧ s.pending 0 = 1 := ⟨_, rfl, rfl⟩
  have hreach : ((lts wholeNumbers 0).restrict (FreshStart wholeNumbers)).Reachable s :=
    LTS.Reachable.of_guarded rfl hs
  exact ⟨s, hs, (one_chain_of_fresh_starts wholeNumbers 0 s hreach).1, hone⟩

/-- **The counterexample.** Started again during the exposure, with other
parameters, the camera is acquiring and nothing is pending for it. -/
theorem no_chain_after_restart : ¬ ∀ s : Simulator Nat Int Int, (lts wholeNumbers 0).Reachable s → s.OneChain := by
  intro h
  obtain ⟨s, hs, hzero, hint⟩ : ∃ s : Simulator Nat Int Int,
      LTS.exec (step wholeNumbers) (new 0) (firstExposure ++ [.startCameraAcquisition 0 2 4,
        .iterate (fun _ => 5) 0 ⟨0, 3, .start 0 2 4⟩]) = some s ∧
        s.pending 0 = 0 ∧ (s.integratingCameras 0).isSome := ⟨_, rfl, rfl, rfl⟩
  have hone := (h s (LTS.Reachable.of_exec rfl hs) 0).2 hint
  rw [hzero] at hone
  exact Nat.zero_ne_one hone

end Catkit2.L5
