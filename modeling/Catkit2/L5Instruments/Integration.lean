import Catkit2.L5Instruments.Simulator
import Catkit2.L5Instruments.SimulatorClock
import Mathlib.Algebra.BigOperators.Group.List.Basic
import Mathlib.Algebra.Group.Action.Defs
import Mathlib.Algebra.Order.Group.Int
import Mathlib.Algebra.Order.Group.Unbundled.Basic
import Mathlib.Tactic.Abel

/-!
# What a camera integrates (catkit2/simulator/simulator.py, Simulator.main)

The simulator with the callbacks of every other device in its queue, one
iteration at a time and in exact arithmetic. Each iteration writes down how far
it advanced the simulated time and with which images, and what happened to a
camera in it; a throttled iteration advances nothing.

The callbacks of other devices do nothing to the cameras. What they make the
simulator do next, adding callbacks and removing those of their own, are steps
like any other, and the images may be different in every iteration.

* `measured_step`: what each camera has integrated is what the iterations since
  its last reset give, and what is missing of its exposure is how far ahead its
  readout is.
* `readout_eq_sum`: every readout is the sum over its exposure.
-/
namespace Catkit2.L5

variable {κ τ P : Type}

/-! ## The events -/

inductive Event (κ τ P : Type) where
  /-- An iteration that is not throttled; `cameraImages` is what `get_camera_power` returned in it. -/
  | advance (cameraImages : κ → P) (dt : τ)
  /-- `integrationTime` is the one in force. -/
  | reset (camera : κ) (integrationTime : τ)
  | readout (camera : κ) (power : P)

/-- The iterations among the events. -/
def advances (events : List (Event κ τ P)) : List ((κ → P) × τ) :=
  events.filterMap fun
    | .advance cameraImages dt => some (cameraImages, dt)
    | _ => none

/-- The readouts among the events. -/
def readouts (events : List (Event κ τ P)) : List (κ × P) :=
  events.filterMap fun
    | .readout camera power => some (camera, power)
    | _ => none

/-- The iterations since the last reset of the camera, and the integration time
of that reset. -/
def Exposure (events : List (Event κ τ P)) (camera : κ) (integrationTime : τ)
    (iterations : List ((κ → P) × τ)) : Prop :=
  ∃ before after, events = before ++ .reset camera integrationTime :: after ∧
    (∀ it, .reset camera it ∉ after) ∧ advances after = iterations

/-- How far the iterations advanced the time. -/
def elapsed [AddMonoid τ] (iterations : List ((κ → P) × τ)) : τ := (iterations.map fun i => i.2).sum

/-- Power times time, over the iterations. -/
def collected [AddMonoid P] [SMul τ P] (camera : κ) (iterations : List ((κ → P) × τ)) : P :=
  (iterations.map fun i => i.2 • i.1 camera).sum

/-! ## The simulator with everything in its queue -/

/-- Exact arithmetic; a camera adds power times time.
mirrors catkit2/simulator/simulator.py:116, 123-126, 270 -/
def exactScalars [AddGroup τ] [LinearOrder τ] [AddMonoid P] [SMul τ P] : Scalars τ P where
  lt a b := decide (a < b)
  isNan _ := false
  add := (· + ·)
  sub := (· - ·)
  zero := 0
  integrate power image dt := power + dt • image

def Callback.timed (cb : Callback κ τ) : Timed τ := ⟨cb.time, cb.id⟩

/-- `others` are the callbacks in the queue that concern no camera; they have
their ids from the same counter. -/
structure Integrating (κ τ P : Type) where
  sim : Simulator κ τ P
  others : List (Timed τ)
  events : List (Event κ τ P)

inductive IntegratingStep (κ τ P : Type) where
  | simulator (l : SimulatorStep κ τ P)
  /-- `add_callback` for another device. -/
  | addOther (t : Option τ)
  /-- `remove_callback` of one of those. -/
  | removeOther (cb : Timed τ)
  | iterateOther (cameraImages : κ → P) (allowed : τ) (cb : Timed τ)

namespace Integrating

variable [DecidableEq κ] [AddGroup τ] [LinearOrder τ] [AddMonoid P] [SMul τ P]

/-- What the callback does to a camera. -/
def callEvents (s : Simulator κ τ P) (cb : Callback κ τ) : List (Event κ τ P) :=
  match cb.func with
  | .reset camera =>
    match s.integratingCameras camera with
    | some (integrationTime, _) => [.reset camera integrationTime]
    | none => []
  | .readout camera _ _ =>
    match s.cameraIntegratedPower camera with
    | some power => [.readout camera power]
    | none => []
  | _ => []

/-- What happens in an iteration. -/
def iterationEvents (s : Simulator κ τ P) (cameraImages : κ → P) (allowed : τ) (cb : Callback κ τ) :
    List (Event κ τ P) :=
  if exactScalars.lt (P := P) allowed (cb.time - s.time) then []
  else .advance cameraImages (cb.time - s.time) ::
    callEvents
      (Simulator.advance exactScalars { s with callbacks := s.callbacks.erase cb } cameraImages cb) cb

def stepEvents (s : Simulator κ τ P) : SimulatorStep κ τ P → List (Event κ τ P)
  | .iterate cameraImages allowed cb => iterationEvents s cameraImages allowed cb
  | _ => []

/-- Nothing else in the queue is earlier, and there is nothing in it without
callbacks. -/
def MayTake (s : Integrating κ τ P) : SimulatorStep κ τ P → Prop
  | .iterate _ _ cb => ∀ o ∈ s.others, ¬ o.before cb.timed
  | .idle => s.others = []
  | _ => True

instance (s : Integrating κ τ P) (l : SimulatorStep κ τ P) : Decidable (s.MayTake l) :=
  match l with
  | .iterate _ _ cb => inferInstanceAs (Decidable (∀ o ∈ s.others, ¬ o.before cb.timed))
  | .idle => inferInstanceAs (Decidable (s.others = []))
  | .startCameraAcquisition _ _ _ | .endCameraAcquisition _ => inferInstanceAs (Decidable True)

/-- The callback is of another device and earliest in the queue. -/
def MayTakeOther (s : Integrating κ τ P) (cb : Timed τ) : Prop :=
  cb ∈ s.others ∧ (∀ o ∈ s.others, ¬ o.before cb) ∧ ∀ c ∈ s.sim.callbacks, ¬ c.timed.before cb

instance (s : Integrating κ τ P) (cb : Timed τ) : Decidable (s.MayTakeOther cb) :=
  inferInstanceAs (Decidable (_ ∧ _))

def step (s : Integrating κ τ P) : IntegratingStep κ τ P → Option (Integrating κ τ P)
  | .simulator l =>
    if s.MayTake l then
      (Simulator.step exactScalars s.sim l).map fun sim => { s with
        sim
        events := s.events ++ stepEvents s.sim l }
    else none
  | .addOther t => some { s with
      others := s.others ++ [⟨t.getD s.sim.time, s.sim.callbackCounter⟩]
      sim := { s.sim with callbackCounter := s.sim.callbackCounter + 1 } }
  | .removeOther cb => some { s with others := s.others.erase cb }
  | .iterateOther cameraImages allowed cb =>
    if s.MayTakeOther cb then
      if allowed < cb.time - s.sim.time then some { s with others := s.others.erase cb ++ [cb] }
      else some { s with
        others := s.others.erase cb
        sim := { s.sim.integrate exactScalars cameraImages (cb.time - s.sim.time) with time := cb.time }
        events := s.events ++ [.advance cameraImages (cb.time - s.sim.time)] }
    else none

def lts (t₀ : τ) : LTS (Integrating κ τ P) (IntegratingStep κ τ P) :=
  .ofFn (· = ⟨Simulator.new t₀, [], []⟩) step

/-- An exposure fits in its frame, and nothing is scheduled before the simulated time. -/
def WellTimed (s : Integrating κ τ P) : IntegratingStep κ τ P → Prop
  | .simulator (.startCameraAcquisition _ integrationTime frameInterval) =>
    0 ≤ integrationTime ∧ integrationTime ≤ frameInterval
  | .addOther (some t) => s.sim.time ≤ t
  | _ => True

instance (s : Integrating κ τ P) (l : IntegratingStep κ τ P) : Decidable (s.WellTimed l) := by
  unfold WellTimed; split <;> exact inferInstance

/-! ## The invariant -/

/-- The exposure that a callback starts or ends fits in its frame. -/
def Func.Fits : Func κ τ → Prop
  | .start _ integrationTime frameInterval | .readout _ integrationTime frameInterval =>
    0 ≤ integrationTime ∧ integrationTime ≤ frameInterval
  | _ => True

/-- The power is what the iterations since the last reset give, which took as
long as the integration time of that reset. -/
def Read (events : List (Event κ τ P)) (camera : κ) (power : P) : Prop :=
  ∃ integrationTime iterations, Exposure events camera integrationTime iterations ∧
    (∀ i ∈ iterations, 0 ≤ i.2) ∧ elapsed iterations = integrationTime ∧
    power = collected camera iterations

/-- The power so far is what the iterations since the last reset give; a
readout is due when the integration time of that reset is over. -/
def Exposing (s : Simulator κ τ P) (events : List (Event κ τ P)) (camera : κ) (power : P) : Prop :=
  ∃ integrationTime iterations, Exposure events camera integrationTime iterations ∧
    power = collected camera iterations ∧
    ∀ c ∈ s.callbacks, ∀ it fi, c.func = .readout camera it fi →
      c.time - s.time + elapsed iterations = integrationTime

structure Measured (s : Integrating κ τ P) : Prop where
  inv : Simulator.Inv s.sim
  ahead : ∀ c ∈ s.sim.callbacks, s.sim.time ≤ c.time
  aheadOthers : ∀ o ∈ s.others, s.sim.time ≤ o.time
  fits : ∀ c ∈ s.sim.callbacks, Func.Fits c.func
  inForce : ∀ camera p, s.sim.integratingCameras camera = some p → 0 ≤ p.1 ∧ p.1 ≤ p.2
  forward : ∀ i ∈ advances s.events, 0 ≤ i.2
  exposing : ∀ camera power, s.sim.cameraIntegratedPower camera = some power →
    Exposing s.sim s.events camera power
  images : s.sim.images = readouts s.events
  read : ∀ before camera power, before ++ [.readout camera power] <+: s.events → Read before camera power

end Integrating

/-! ## What the callbacks leave alone -/

section Callbacks

variable [DecidableEq κ]

/-- A readout takes the power, and may schedule a reset. -/
theorem readoutCallback_keeps (n : Scalars τ P) {sim : Simulator κ τ P} {camera : κ} (it fi t : τ)
    {power : P} (hpower : sim.cameraIntegratedPower camera = some power) :
    (sim.readoutCallback n camera it fi t).time = sim.time ∧
      (sim.readoutCallback n camera it fi t).images = sim.images ++ [(camera, power)] ∧
      (sim.readoutCallback n camera it fi t).cameraIntegratedPower =
        Function.update sim.cameraIntegratedPower camera none ∧
      (sim.readoutCallback n camera it fi t).integratingCameras = sim.integratingCameras ∧
      ∀ c ∈ (sim.readoutCallback n camera it fi t).callbacks,
        c ∈ sim.callbacks ∨ c.time = n.add (n.sub t it) fi ∧ c.func = .reset camera := by
  unfold Simulator.readoutCallback
  rw [hpower]
  dsimp only
  split
  · exact ⟨rfl, rfl, rfl, rfl, fun c hc => .inl hc⟩
  · refine ⟨rfl, rfl, rfl, rfl, fun c hc => ?_⟩
    rcases List.mem_append.mp hc with hc | hc
    · exact .inl hc
    · rw [List.mem_singleton.mp hc]
      exact .inr ⟨rfl, rfl⟩

variable [DecidableEq τ]

/-- A start cancels what is pending for the camera, and may schedule a reset. -/
theorem mem_startCallback {sim : Simulator κ τ P} {camera : κ} {it fi : τ} {c : Callback κ τ}
    (h : c ∈ (sim.startCallback camera it fi).callbacks) :
    c ∈ sim.callbacks ∨ c.time = sim.time ∧ c.func = .reset camera := by
  have hcancel : ∀ c ∈ (sim.cancelCallback camera).callbacks, c ∈ sim.callbacks := by
    intro c hc
    unfold Simulator.cancelCallback at hc
    split at hc
    · exact List.mem_of_mem_eraseP hc
    · exact hc
  have htime : (sim.cancelCallback camera).time = sim.time := by
    unfold Simulator.cancelCallback
    split <;> rfl
  unfold Simulator.startCallback at h
  dsimp only at h
  split at h
  · rcases List.mem_append.mp h with h | h
    · exact .inl (hcancel c h)
    · rw [List.mem_singleton.mp h]
      exact .inr ⟨htime, rfl⟩
  · exact .inl (hcancel c h)

/-- A start leaves the clock, the images and the power, and puts its own times in force. -/
theorem startCallback_keeps (sim : Simulator κ τ P) (camera : κ) (it fi : τ) :
    (sim.startCallback camera it fi).time = sim.time ∧
      (sim.startCallback camera it fi).images = sim.images ∧
      (sim.startCallback camera it fi).cameraIntegratedPower = sim.cameraIntegratedPower ∧
      (sim.startCallback camera it fi).integratingCameras =
        Function.update sim.integratingCameras camera (some (it, fi)) := by
  unfold Simulator.startCallback Simulator.cancelCallback Simulator.schedule
  split <;> (dsimp only; split <;> exact ⟨rfl, rfl, rfl, rfl⟩)

end Callbacks

/-! ## Exposures -/

variable {events : List (Event κ τ P)} {camera : κ} {it : τ} {iterations : List ((κ → P) × τ)}

theorem advances_append (e₁ e₂ : List (Event κ τ P)) :
    advances (e₁ ++ e₂) = advances e₁ ++ advances e₂ := List.filterMap_append

theorem readouts_append (e₁ e₂ : List (Event κ τ P)) :
    readouts (e₁ ++ e₂) = readouts e₁ ++ readouts e₂ := List.filterMap_append

theorem elapsed_concat [AddMonoid τ] (iterations : List ((κ → P) × τ)) (i : (κ → P) × τ) :
    elapsed (iterations ++ [i]) = elapsed iterations + i.2 := by
  simp [elapsed]

theorem collected_concat [AddMonoid P] [SMul τ P] (camera : κ) (iterations : List ((κ → P) × τ))
    (i : (κ → P) × τ) :
    collected camera (iterations ++ [i]) = collected camera iterations + i.2 • i.1 camera := by
  simp [collected]

theorem exposure_reset (events : List (Event κ τ P)) (camera : κ) (it : τ) :
    Exposure (events ++ [.reset camera it]) camera it [] := ⟨events, [], rfl, by simp, rfl⟩

/-- What is not a reset of the camera goes on with its exposure. -/
theorem Exposure.append (h : Exposure events camera it iterations) {e : Event κ τ P}
    (he : ∀ it', e ≠ .reset camera it') :
    Exposure (events ++ [e]) camera it (iterations ++ advances [e]) := by
  obtain ⟨before, after, rfl, hlast, rfl⟩ := h
  refine ⟨before, after ++ [e], by simp, fun it' hmem => ?_, ?_⟩
  · rcases List.mem_append.mp hmem with hmem | hmem
    · exact hlast it' hmem
    · exact he it' (List.mem_singleton.mp hmem).symm
  · exact advances_append _ _

/-- Its iterations are among all of them. -/
theorem Exposure.mem_advances (h : Exposure events camera it iterations) {i : (κ → P) × τ}
    (hi : i ∈ iterations) : i ∈ advances events := by
  obtain ⟨before, after, rfl, -, rfl⟩ := h
  obtain ⟨e, he, hsome⟩ := List.mem_filterMap.mp hi
  exact List.mem_filterMap.mpr ⟨e, by simp [he], hsome⟩

namespace Integrating

variable [AddCommGroup τ] [LinearOrder τ] [AddMonoid P] [SMul τ P] {s s' : Integrating κ τ P}

/-- The queue gets callbacks that end no exposure, and may lose others. -/
theorem Measured.requeue (h : Measured s) {sim : Simulator κ τ P} {others : List (Timed τ)}
    (hinv : Simulator.Inv sim) (htime : sim.time = s.sim.time) (himages : sim.images = s.sim.images)
    (hpower : sim.cameraIntegratedPower = s.sim.cameraIntegratedPower)
    (hint : ∀ camera p, sim.integratingCameras camera = some p → 0 ≤ p.1 ∧ p.1 ≤ p.2)
    (hq : ∀ c ∈ sim.callbacks, c ∈ s.sim.callbacks ∨
      s.sim.time ≤ c.time ∧ Func.Fits c.func ∧ ∀ camera it fi, c.func ≠ .readout camera it fi)
    (hothers : ∀ o ∈ others, s.sim.time ≤ o.time) : Measured ⟨sim, others, s.events⟩ := by
  refine ⟨hinv, fun c hc => ?_, htime ▸ hothers, fun c hc => ?_, hint, h.forward,
    fun camera power hsome => ?_, himages.trans h.images, h.read⟩
  · rcases hq c hc with hc | ⟨hle, -⟩
    · exact htime ▸ h.ahead c hc
    · exact htime ▸ hle
  · rcases hq c hc with hc | ⟨-, hfits, -⟩
    · exact h.fits c hc
    · exact hfits
  · obtain ⟨it, iterations, hexp, hsum, hdue⟩ := h.exposing camera power (hpower ▸ hsome)
    refine ⟨it, iterations, hexp, hsum, fun c hc it' fi hf => ?_⟩
    rcases hq c hc with hc | ⟨-, -, hnot⟩
    · exact htime ▸ hdue c hc it' fi hf
    · exact absurd hf (hnot camera it' fi)

/-- One more event; if it is a readout, it must be right. -/
theorem Measured.read_concat (h : Measured s) {e : Event κ τ P}
    (he : ∀ camera power, e = .readout camera power → Read s.events camera power) :
    ∀ before camera power, before ++ [.readout camera power] <+: s.events ++ [e] →
      Read before camera power := by
  intro before camera power hpre
  rcases List.prefix_concat_iff.mp hpre with heq | hpre
  · obtain ⟨rfl, hx⟩ := List.append_inj' heq rfl
    exact he camera power (List.head_eq_of_cons_eq hx).symm
  · exact h.read before camera power hpre

variable [DecidableEq κ]

theorem Measured.start (h : Measured s) (camera : κ) {it fi : τ} (hfits : 0 ≤ it ∧ it ≤ fi) :
    Measured ⟨s.sim.startCallback camera it fi, s.others, s.events⟩ := by
  obtain ⟨htime, himages, hpower, hint⟩ := startCallback_keeps s.sim camera it fi
  refine h.requeue (Simulator.inv_startCallback h.inv camera it fi) htime himages hpower
    (fun camera' p hp => ?_) (fun c hc => ?_) h.aheadOthers
  · rw [hint] at hp
    by_cases hcam : camera' = camera
    · subst hcam
      rw [Function.update_self] at hp
      cases hp
      exact hfits
    · rw [Function.update_of_ne hcam] at hp
      exact h.inForce camera' p hp
  · rcases mem_startCallback hc with hc | ⟨ht, hf⟩
    · exact .inl hc
    · exact .inr ⟨ht.ge, by rw [hf]; trivial, fun camera it fi he => by rw [hf] at he; cases he⟩

variable [IsOrderedAddMonoid τ]

omit [DecidableEq κ] in
/-- An iteration takes the time up to `t`, which nothing in the queue is before. -/
theorem Measured.advance (h : Measured s) (cameraImages : κ → P) {t : τ} (ht : s.sim.time ≤ t)
    (hq : ∀ c ∈ s.sim.callbacks, t ≤ c.time) (hothers : ∀ o ∈ s.others, t ≤ o.time) :
    Measured ⟨{ s.sim.integrate exactScalars cameraImages (t - s.sim.time) with time := t }, s.others,
      s.events ++ [.advance cameraImages (t - s.sim.time)]⟩ := by
  refine ⟨⟨h.inv.fresh, h.inv.unique, h.inv.past, h.inv.own, h.inv.remembered,
      fun c hc camera it fi hf => ?_⟩,
    hq, hothers, h.fits, h.inForce, fun i hi => ?_, fun camera power hsome => ?_, ?_,
    h.read_concat fun camera power he => by cases he⟩
  · have hpowered := h.inv.powered c hc camera it fi hf
    simp only [Simulator.integrate, Option.isSome_map]
    exact hpowered
  · rw [advances_append] at hi
    rcases List.mem_append.mp hi with hi | hi
    · exact h.forward i hi
    · rw [List.mem_singleton.mp hi]
      exact sub_nonneg.mpr ht
  · obtain ⟨power, hpower, rfl⟩ := Option.map_eq_some_iff.mp hsome
    obtain ⟨it, iterations, hexp, rfl, hdue⟩ := h.exposing camera power hpower
    have hnext := hexp.append (e := .advance cameraImages (t - s.sim.time)) (fun it' he => by cases he)
    refine ⟨it, _, hnext, (collected_concat _ _ (cameraImages, t - s.sim.time)).symm,
      fun c hc it' fi hf => ?_⟩
    have hrest := hdue c hc it' fi hf
    calc c.time - t + elapsed (iterations ++ advances [.advance cameraImages (t - s.sim.time)])
        = c.time - t + (elapsed iterations + (t - s.sim.time)) :=
          congrArg (c.time - t + ·) (elapsed_concat iterations (cameraImages, t - s.sim.time))
      _ = c.time - s.sim.time + elapsed iterations := by abel
      _ = it := hrest
  · rw [readouts_append]
    exact h.images.trans (List.append_nil _).symm

/-- A reset begins an exposure without any iteration, and its readout is due
after the integration time in force. -/
theorem Measured.reset (h : Measured s) {camera : κ} (hquiet : s.sim.Quiet camera) {it fi : τ}
    (hint : s.sim.integratingCameras camera = some (it, fi)) :
    Measured ⟨s.sim.resetCallback exactScalars camera s.sim.time, s.others,
      s.events ++ [.reset camera it]⟩ := by
  have hfits := h.inForce camera _ hint
  have hinv := Simulator.inv_resetCallback (n := exactScalars) h.inv hquiet s.sim.time
  unfold Simulator.resetCallback at hinv ⊢
  rw [hint] at hinv ⊢
  refine ⟨hinv, fun c hc => ?_, h.aheadOthers, fun c hc => ?_, h.inForce, fun i hi => ?_,
    fun camera' power hsome => ?_, ?_, h.read_concat fun camera power he => by cases he⟩
  · rcases List.mem_append.mp hc with hc | hc
    · exact h.ahead c hc
    · rw [List.mem_singleton.mp hc]
      exact le_add_of_nonneg_right hfits.1
  · rcases List.mem_append.mp hc with hc | hc
    · exact h.fits c hc
    · rw [List.mem_singleton.mp hc]
      exact hfits
  · rw [advances_append] at hi
    rcases List.mem_append.mp hi with hi | hi
    · exact h.forward i hi
    · cases hi
  · by_cases hcam : camera' = camera
    · subst hcam
      simp only [Simulator.schedule, Simulator.addCallback, Function.update_self] at hsome
      cases hsome
      refine ⟨it, [], exposure_reset _ _ _, rfl, fun c hc it' fi' hf => ?_⟩
      rcases List.mem_append.mp hc with hc | hc
      · exact absurd (by unfold Callback.Of; rw [hf]; rfl) (hquiet c hc)
      · rw [List.mem_singleton.mp hc]
        change s.sim.time + it - s.sim.time + 0 = it
        rw [add_zero, add_sub_cancel_left]
    · simp only [Simulator.schedule, Simulator.addCallback, Function.update_of_ne hcam] at hsome
      obtain ⟨it', iterations, hexp, hsum, hdue⟩ := h.exposing camera' power hsome
      have hnext := hexp.append (e := .reset camera it) (fun it'' he => by cases he; exact hcam rfl)
      rw [show iterations ++ advances [Event.reset camera it] = iterations from List.append_nil _] at hnext
      refine ⟨it', iterations, hnext, hsum, fun c hc it'' fi' hf => ?_⟩
      rcases List.mem_append.mp hc with hc | hc
      · exact hdue c hc it'' fi' hf
      · rw [List.mem_singleton.mp hc] at hf
        cases hf
        exact absurd rfl hcam
  · rw [readouts_append]
    exact h.images.trans (List.append_nil _).symm

/-- A readout ends the exposure; the next reset is not before it. -/
theorem Measured.readout (h : Measured s) {camera : κ} (hquiet : s.sim.Quiet camera) {it fi : τ}
    (hfits : 0 ≤ it ∧ it ≤ fi) {power : P} (hpower : s.sim.cameraIntegratedPower camera = some power)
    (hread : Read s.events camera power) :
    Measured ⟨s.sim.readoutCallback exactScalars camera it fi s.sim.time, s.others,
      s.events ++ [.readout camera power]⟩ := by
  have hinv := Simulator.inv_readoutCallback (n := exactScalars) h.inv hquiet it fi s.sim.time
  obtain ⟨htime, himages, hnone, hint, hq⟩ :=
    readoutCallback_keeps exactScalars it fi s.sim.time hpower
  have hnext : s.sim.time ≤ s.sim.time - it + fi := by
    calc s.sim.time = s.sim.time - it + it := (sub_add_cancel _ _).symm
      _ ≤ s.sim.time - it + fi := by gcongr; exact hfits.2
  refine ⟨hinv, fun c hc => ?_, fun o ho => htime.trans_le (h.aheadOthers o ho), fun c hc => ?_,
    hint ▸ h.inForce, fun i hi => ?_, fun camera' power' hsome => ?_, ?_,
    h.read_concat fun camera' power' he => ?_⟩
  · rcases hq c hc with hc | ⟨ht, -⟩
    · exact htime.trans_le (h.ahead c hc)
    · rw [ht]
      exact htime.trans_le hnext
  · rcases hq c hc with hc | ⟨-, hf⟩
    · exact h.fits c hc
    · rw [hf]
      trivial
  · rw [advances_append] at hi
    rcases List.mem_append.mp hi with hi | hi
    · exact h.forward i hi
    · cases hi
  · rw [hnone] at hsome
    have hcam : camera' ≠ camera := by
      rintro rfl
      rw [Function.update_self] at hsome
      cases hsome
    rw [Function.update_of_ne hcam] at hsome
    obtain ⟨it', iterations, hexp, hsum, hdue⟩ := h.exposing camera' power' hsome
    have hgoes := hexp.append (e := .readout camera power) (fun it'' he => by cases he)
    rw [show iterations ++ advances [Event.readout camera power] = iterations from List.append_nil _]
      at hgoes
    refine ⟨it', iterations, hgoes, hsum, fun c hc it'' fi' hf => ?_⟩
    rcases hq c hc with hc | ⟨-, hf'⟩
    · simp only [htime]
      exact hdue c hc it'' fi' hf
    · rw [hf'] at hf
      cases hf
  · rw [readouts_append, himages, h.images]
    rfl
  · cases he
    exact hread

/-- **Running a callback** that is no longer in the queue, at its time. -/
theorem measured_call (h : Measured s) {cb : Callback κ τ} (ht : cb.time = s.sim.time)
    (hquiet : ∀ camera, cb.Of camera → s.sim.Quiet camera) (hfits : Func.Fits cb.func)
    (hpowered : ∀ camera it fi, cb.func = .readout camera it fi →
      ∃ power, s.sim.cameraIntegratedPower camera = some power ∧ Read s.events camera power) :
    Measured ⟨Simulator.call exactScalars s.sim cb, s.others, s.events ++ callEvents s.sim cb⟩ := by
  unfold Simulator.call callEvents
  rw [ht]
  cases hf : cb.func with
  | start camera it fi =>
    rw [hf] at hfits
    rw [List.append_nil]
    exact h.start camera hfits
  | stop camera =>
    rw [List.append_nil]
    refine h.requeue ⟨h.inv.fresh, h.inv.unique, h.inv.past, h.inv.own, h.inv.remembered, h.inv.powered⟩
      rfl rfl rfl (fun camera' p hp => ?_) (fun c hc => .inl hc) h.aheadOthers
    have hcam : camera' ≠ camera := by
      rintro rfl
      simp only [Simulator.stopCallback, Function.update_self] at hp
      cases hp
    simp only [Simulator.stopCallback, Function.update_of_ne hcam] at hp
    exact h.inForce camera' p hp
  | reset camera =>
    have hq := hquiet camera (by unfold Callback.Of; rw [hf]; rfl)
    dsimp only
    cases hint : s.sim.integratingCameras camera with
    | none =>
      unfold Simulator.resetCallback
      rw [hint, List.append_nil]
      exact h
    | some p => exact h.reset hq hint
  | readout camera it fi =>
    have hq := hquiet camera (by unfold Callback.Of; rw [hf]; rfl)
    obtain ⟨power, hpower, hread⟩ := hpowered camera it fi hf
    rw [hf] at hfits
    dsimp only
    rw [hpower]
    exact h.readout hq hfits hpower hread

/-! ## Steps -/

omit [IsOrderedAddMonoid τ] in
/-- In exact arithmetic the callback that is taken is the least one. -/
theorem first_of_isNext {cb : Callback κ τ} {callbacks : List (Callback κ τ)}
    (h : cb.isNext (exactScalars : Scalars τ P) callbacks = true) :
    cb ∈ callbacks ∧ ∀ c ∈ callbacks, ¬ c.timed.before cb.timed := by
  refine ⟨Simulator.mem_of_isNext h, fun c hc hbefore => ?_⟩
  unfold Callback.isNext at h
  rw [Bool.and_eq_true, Bool.or_eq_true] at h
  rcases h.2 with hall | hnan
  · have hnot := List.all_eq_true.mp hall c hc
    unfold Callback.before at hnot
    change c.time < cb.time ∨ c.time = cb.time ∧ c.id < cb.id at hbefore
    rcases hbefore with hlt | ⟨heq, hid⟩
    · rw [if_neg (ne_of_lt hlt)] at hnot
      simp only [exactScalars, Bool.not_eq_true', decide_eq_false_iff_not] at hnot
      exact hnot hlt
    · rw [if_pos heq] at hnot
      simp only [Bool.not_eq_true', decide_eq_false_iff_not] at hnot
      exact hnot hid
  · obtain ⟨x, -, hx⟩ := List.any_eq_true.mp hnan
    cases hx

omit [IsOrderedAddMonoid τ] in
/-- **What a step does.** -/
theorem step_cases {l : IntegratingStep κ τ P} (h : step s l = some s') :
    (∃ func, func.chained = none ∧
      (∀ camera it fi, func = .start camera it fi → l = .simulator (.startCameraAcquisition camera it fi)) ∧
      s' = { s with sim := (s.sim.addCallback func none).2 }) ∨
    (∃ t, l = .addOther t ∧ s' = { s with
      others := s.others ++ [⟨t.getD s.sim.time, s.sim.callbackCounter⟩]
      sim := { s.sim with callbackCounter := s.sim.callbackCounter + 1 } }) ∨
    (∃ others, (∀ o ∈ others, o ∈ s.others) ∧ s' = { s with others }) ∨
    (∃ cb ∈ s.sim.callbacks, s' = { s with
      sim := { s.sim with callbacks := s.sim.callbacks.erase cb ++ [cb] } }) ∨
    (∃ cameraImages cb, cb ∈ s.others ∧ (∀ o ∈ s.others, ¬ o.before cb) ∧
      (∀ c ∈ s.sim.callbacks, ¬ c.timed.before cb) ∧ s' = ⟨{
        s.sim.integrate exactScalars cameraImages (cb.time - s.sim.time) with time := cb.time },
        s.others.erase cb, s.events ++ [.advance cameraImages (cb.time - s.sim.time)]⟩) ∨
    (∃ cameraImages cb, cb ∈ s.sim.callbacks ∧ (∀ o ∈ s.others, ¬ o.before cb.timed) ∧
      (∀ c ∈ s.sim.callbacks, ¬ c.timed.before cb.timed) ∧
      let popped := Simulator.advance exactScalars
        { s.sim with callbacks := s.sim.callbacks.erase cb } cameraImages cb
      s' = ⟨Simulator.call exactScalars popped cb, s.others,
        s.events ++ .advance cameraImages (cb.time - s.sim.time) :: callEvents popped cb⟩) := by
  cases l with
  | addOther t =>
    cases h
    exact .inr (.inl ⟨t, rfl, rfl⟩)
  | removeOther cb =>
    cases h
    exact .inr (.inr (.inl ⟨_, fun o ho => List.mem_of_mem_erase ho, rfl⟩))
  | iterateOther cameraImages allowed cb =>
    simp only [step] at h
    split at h
    · rename_i hnext
      obtain ⟨hcb, hothers, hq⟩ := hnext
      split at h
      · cases h
        have hmem : ∀ o ∈ s.others.erase cb ++ [cb], o ∈ s.others := by
          intro o ho
          rcases List.mem_append.mp ho with ho | ho
          · exact List.mem_of_mem_erase ho
          · rw [List.mem_singleton.mp ho]
            exact hcb
        exact .inr (.inr (.inl ⟨_, hmem, rfl⟩))
      · cases h
        exact .inr (.inr (.inr (.inr (.inl ⟨cameraImages, cb, hcb, hothers, hq, rfl⟩))))
    · cases h
  | simulator l =>
    simp only [step] at h
    split at h
    · rename_i hmay
      obtain ⟨sim, hsim, rfl⟩ := Option.map_eq_some_iff.mp h
      cases l with
      | startCameraAcquisition camera it fi =>
        cases hsim
        refine .inl ⟨.start camera it fi, rfl, fun camera' it' fi' hf => ?_, ?_⟩
        · cases hf; rfl
        · simp only [stepEvents, List.append_nil]
      | endCameraAcquisition camera =>
        cases hsim
        refine .inl ⟨.stop camera, rfl, fun camera' it' fi' hf => ?_, ?_⟩
        · cases hf
        · simp only [stepEvents, List.append_nil]
      | idle =>
        simp only [Simulator.step] at hsim
        split at hsim
        · cases hsim
          exact .inr (.inr (.inl ⟨s.others, fun o ho => ho, by simp only [stepEvents, List.append_nil]⟩))
        · cases hsim
      | iterate cameraImages allowed cb =>
        simp only [Simulator.step] at hsim
        split at hsim
        · rename_i hnext
          cases hsim
          obtain ⟨hcb, hfirst⟩ := first_of_isNext hnext
          cases hfast : (exactScalars (P := P)).lt allowed (cb.time - s.sim.time) with
          | true =>
            have hsim : Simulator.iterate exactScalars s.sim cameraImages allowed cb = _ := if_pos hfast
            have hevents : stepEvents s.sim (.iterate cameraImages allowed cb) = _ := if_pos hfast
            exact .inr (.inr (.inr (.inl ⟨cb, hcb, by rw [hsim, hevents, List.append_nil]⟩)))
          | false =>
            have hslow : ¬ (exactScalars (P := P)).lt allowed (cb.time - s.sim.time) = true := by
              rw [hfast]
              exact Bool.false_ne_true
            have hsim : Simulator.iterate exactScalars s.sim cameraImages allowed cb = _ := if_neg hslow
            have hevents : stepEvents s.sim (.iterate cameraImages allowed cb) = _ := if_neg hslow
            exact .inr (.inr (.inr (.inr (.inr
              ⟨cameraImages, cb, hcb, hmay, hfirst, by rw [hsim, hevents]⟩))))
        · cases hsim
    · cases h

/-- **Every step** that schedules nothing in the past. -/
theorem measured_step {l : IntegratingStep κ τ P} (h : Measured s) (hl : s.WellTimed l)
    (hs : step s l = some s') : Measured s' := by
  obtain ⟨func, hfunc, hstart, rfl⟩ | ⟨t, rfl, rfl⟩ | ⟨others, hothers, rfl⟩ | ⟨cb, hcb, rfl⟩ |
    ⟨cameraImages, cb, hcb, hothers, hq, rfl⟩ | ⟨cameraImages, cb, hcb, hothers, hq, rfl⟩ := step_cases hs
  · refine h.requeue (h.inv.add none hfunc) rfl rfl rfl h.inForce (fun c hc => ?_) h.aheadOthers
    rcases List.mem_append.mp hc with hc | hc
    · exact .inl hc
    · rw [List.mem_singleton.mp hc]
      refine .inr ⟨le_refl _, ?_, fun camera it fi hf => ?_⟩
      · cases func with
        | start camera it fi =>
          rw [hstart camera it fi rfl] at hl
          exact hl
        | stop camera => trivial
        | reset camera => trivial
        | readout camera it fi => cases hfunc
      · change func = _ at hf
        rw [hf] at hfunc
        cases hfunc
  · refine h.requeue ⟨fun c hc => Nat.lt_succ_of_lt (h.inv.fresh c hc), h.inv.unique,
      fun camera cb hcb => Nat.lt_succ_of_lt (h.inv.past camera cb hcb), h.inv.own, h.inv.remembered,
      h.inv.powered⟩ rfl rfl rfl h.inForce (fun c hc => .inl hc) (fun o ho => ?_)
    rcases List.mem_append.mp ho with ho | ho
    · exact h.aheadOthers o ho
    · rw [List.mem_singleton.mp ho]
      cases t with
      | none => exact le_refl _
      | some t => exact hl
  · exact h.requeue h.inv rfl rfl rfl h.inForce (fun c hc => .inl hc) fun o ho =>
      h.aheadOthers o (hothers o ho)
  · refine h.requeue (h.inv.rotate hcb) rfl rfl rfl h.inForce (fun c hc => .inl ?_) h.aheadOthers
    rcases List.mem_append.mp hc with hc | hc
    · exact List.mem_of_mem_erase hc
    · rw [List.mem_singleton.mp hc]
      exact hcb
  · have hle : ∀ {t : Timed τ}, ¬ t.before cb → cb.time ≤ t.time := fun hnot =>
      not_lt.mp fun hlt => hnot (.inl hlt)
    have hadv := h.advance cameraImages (h.aheadOthers cb hcb) (fun c hc => hle (hq c hc))
      (fun o ho => hle (hothers o ho))
    exact hadv.requeue hadv.inv rfl rfl rfl hadv.inForce (fun c hc => .inl hc) fun o ho =>
      hadv.aheadOthers o (List.mem_of_mem_erase ho)
  · have hle : ∀ {t : Timed τ}, ¬ t.before cb.timed → cb.time ≤ t.time := fun hnot =>
      not_lt.mp fun hlt => hnot (.inl hlt)
    have hadv := h.advance cameraImages (h.ahead cb hcb) (fun c hc => hle (hq c hc))
      (fun o ho => hle (hothers o ho))
    obtain ⟨hinv, hquiet⟩ := h.inv.popped hcb exactScalars cameraImages
    have hpop := hadv.requeue hinv rfl rfl rfl hadv.inForce
      (fun c hc => .inl (List.mem_of_mem_erase hc)) hadv.aheadOthers
    have hcall := measured_call hpop (show cb.time = cb.time from rfl) hquiet (h.fits cb hcb)
      fun camera it fi hf => ?_
    · rw [List.append_assoc] at hcall
      exact hcall
    · -- its readout is due now, so the exposure is over
      obtain ⟨power, hpower⟩ := Option.isSome_iff_exists.mp (hadv.inv.powered cb hcb camera it fi hf)
      obtain ⟨integrationTime, iterations, hexp, hsum, hdue⟩ := hadv.exposing camera power hpower
      have hover := hdue cb hcb it fi hf
      refine ⟨power, hpower, integrationTime, iterations, hexp, fun i hi =>
        hadv.forward i (hexp.mem_advances hi), ?_, hsum⟩
      rw [← hover]
      simp

omit [DecidableEq κ] [IsOrderedAddMonoid τ] in
theorem measured_init (t₀ : τ) : Measured (⟨Simulator.new t₀, [], []⟩ : Integrating κ τ P) := by
  refine ⟨Simulator.inv_new t₀, fun c hc => ?_, fun o ho => ?_, fun c hc => ?_, fun camera p hp => ?_,
    fun i hi => ?_, fun camera power hp => ?_, rfl, fun before camera power hpre => ?_⟩
  · cases hc
  · cases ho
  · cases hc
  · cases hp
  · cases hi
  · cases hp
  · simp at hpre

end Integrating

open Integrating

/-- **Every readout is the integral over its exposure**, in every run that
schedules nothing before the simulated time: what `camera_readout` gets is the
sum of power times time over the iterations since the camera's last reset, none
of which goes back in time, and which took the integration time of that reset. -/
theorem readout_eq_sum [DecidableEq κ] [AddCommGroup τ] [LinearOrder τ] [IsOrderedAddMonoid τ] [AddMonoid P]
    [SMul τ P] (t₀ : τ) (s : Integrating κ τ P) (h : ((lts t₀).restrict WellTimed).Reachable s) :
    s.sim.images = readouts s.events ∧
      ∀ before camera power, before ++ [.readout camera power] <+: s.events →
        ∃ integrationTime iterations, Exposure before camera integrationTime iterations ∧
          (∀ i ∈ iterations, 0 ≤ i.2) ∧ elapsed iterations = integrationTime ∧
          power = collected camera iterations := by
  have hind : ((lts t₀).restrict WellTimed).Inductive (Measured (κ := κ) (τ := τ) (P := P)) :=
    ⟨fun s hs => hs ▸ measured_init t₀, fun _ _ _ hi hs => measured_step hi hs.1 hs.2⟩
  have hmeasured := hind.reachable s h
  exact ⟨hmeasured.images, hmeasured.read⟩

/-- An exposure of 2 in a frame of 3, during which another device has a callback at 1. -/
def sharedExposure : List (IntegratingStep Nat Int Int) :=
  [.simulator (.startCameraAcquisition 0 2 3), .simulator (.iterate (fun _ => 3) 0 ⟨0, 0, .start 0 2 3⟩),
    .simulator (.iterate (fun _ => 4) 0 ⟨0, 1, .reset 0⟩), .addOther (some 1),
    .iterateOther (fun _ => 6) 0 ⟨1, 3⟩, .iterateOther (fun _ => 5) 1 ⟨1, 3⟩,
    .simulator (.iterate (fun _ => 7) 1 ⟨2, 2, .readout 0 2 3⟩)]

theorem readout_eq_sum_shared : ∃ (s : Integrating Nat Int Int) (before : List (Event Nat Int Int)),
    LTS.exec (LTS.guarded WellTimed step) ⟨Simulator.new 0, [], []⟩ sharedExposure = some s ∧
      before ++ [.readout 0 12] <+: s.events ∧ ∃ integrationTime iterations,
        Exposure before 0 integrationTime iterations ∧ (∀ i ∈ iterations, 0 ≤ i.2) ∧
        elapsed iterations = integrationTime ∧ 12 = collected 0 iterations := by
  obtain ⟨s, before, hs, hread⟩ : ∃ (s : Integrating Nat Int Int) (before : List (Event Nat Int Int)),
      LTS.exec (LTS.guarded WellTimed step) ⟨Simulator.new 0, [], []⟩ sharedExposure = some s ∧
        before ++ [.readout 0 12] = s.events :=
    ⟨_, [.advance (fun _ => 3) 0, .advance (fun _ => 4) 0, .reset 0 2, .advance (fun _ => 5) 1,
      .advance (fun _ => 7) 1], rfl, rfl⟩
  have hreach : ((lts 0).restrict WellTimed).Reachable s := LTS.Reachable.of_guarded rfl hs
  have hpre : before ++ [.readout 0 12] <+: s.events := hread ▸ List.prefix_refl _
  exact ⟨s, before, hs, hpre, (readout_eq_sum 0 s hreach).2 before 0 12 hpre⟩

end Catkit2.L5
