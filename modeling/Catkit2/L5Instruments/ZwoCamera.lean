import Catkit2.Core.LTS
import Mathlib.Data.Int.Basic

/-!
# The acquisition loop of a camera (catkit2/services/zwo_camera/zwo_camera.py)

The main thread captures frames while it is asked to, and submits them to
`images`, which it gave the size of the camera's region before. The server
thread sets the region in between: `StoppedAcquisition` looks at `is_acquiring`
and, if frames are being captured, asks the main thread to stop and waits. All
operations of the camera may raise, and a shutdown may come at any time.

A step is one access to the camera, to a stream or to a flag. Where the region
starts, the exposure time and the gain are left out: they do not change the size
of a frame.

* `inv_step`: where the main thread can be while the region is set.
* `frames_fit`: every frame has the size of the stream it is submitted to, as
  long as no region is set while a capture is about to start.
-/
namespace Catkit2.L5.ZwoCamera

/-! ## The threads -/

/-- Height and width. -/
abbrev Shape := Nat × Nat

inductive Dimension where
  | width | height
  deriving DecidableEq

def Dimension.set (d : Dimension) (format : Shape) (value : Nat) : Shape :=
  match d with
  | .width => (format.1, value)
  | .height => (value, format.2)

/-- Where `main` is. `stuck`: `stop_video_capture` raised.
mirrors catkit2/services/zwo_camera/zwo_camera.py:178-214 -/
inductive MainAt where
  | test
  | wait
  | shape
  | height (shape : Shape)
  | width (shape : Shape) (height : Nat)
  | newHeight
  | newWidth (height : Nat)
  | update (shape : Shape)
  | start
  | submitOne
  | isSet
  | shouldShutDown
  | capture
  | submitImage (img : Shape)
  | stop (raised : Bool)
  | submitZero (raised : Bool)
  | ended (stuck : Bool)
  deriving DecidableEq

/-- Where the server thread is in a setter, of `width` or of `height`.
`was_running` is set on the way in.
mirrors catkit2/services/zwo_camera/zwo_camera.py:26-45, 149-152, 277-301 -/
inductive RequestAt where
  | idle
  | enter (d : Dimension) (value : Nat)
  | endAcquisition (d : Dimension) (value : Nat)
  | waitStopped (d : Dimension) (value : Nat)
  | getFormat (was_running : Bool) (d : Dimension) (value : Nat)
  | getPosition (was_running : Bool) (d : Dimension) (value : Nat) (format : Shape)
  | setFormat (was_running : Bool) (format : Shape)
  | setPosition (was_running : Bool)
  | exit (was_running : Bool)
  deriving DecidableEq

namespace MainAt

/-- The camera captures. -/
def capturing : MainAt → Bool
  | .submitOne | .isSet | .shouldShutDown | .capture | .submitImage _ | .stop _ | .ended true => true
  | _ => false

/-- The newest frame of `is_acquiring` is a one. -/
def acquiring : MainAt → Bool
  | .isSet | .shouldShutDown | .capture | .submitImage _ | .stop _ | .submitZero _ | .ended true => true
  | _ => false

/-- From here no capture starts unless `should_be_acquiring` is set. -/
def parked : MainAt → Bool
  | .test | .wait | .ended false => true
  | _ => false

/-- The stream has the size of the region. -/
def sized : MainAt → Bool
  | .start | .submitOne | .isSet | .shouldShutDown | .capture | .submitImage _ => true
  | _ => false

end MainAt

/-- Between `__enter__` and the end of `__exit__`. -/
def RequestAt.inside : RequestAt → Bool
  | .getFormat _ _ _ | .getPosition _ _ _ _ | .setFormat _ _ | .setPosition _ | .exit _ => true
  | _ => false

/-- A frame that was submitted, the size the stream had, and what was running. -/
structure Submitted where
  img : Shape
  images : Shape
  capturing : Bool
  acquiring : Bool

structure State where
  region : Shape
  capturing : Bool
  images : Shape
  is_acquiring : Bool
  should_be_acquiring : Bool
  should_shut_down : Bool
  main : MainAt
  request : RequestAt
  submitted : List Submitted

/-- `ok` says whether the operation raises. -/
inductive Step where
  | main (ok : Bool)
  | request (ok : Bool)
  | set (d : Dimension) (value : Nat)
  | startAcquisition
  | endAcquisition
  | shutDown

/-- `|a - b| <= 1e-8 + 1e-5 * |b|` -/
def allclose (a b : Nat) : Bool := 100000000 * ((a : Int) - b).natAbs ≤ 1 + 1000 * b

/-- `np.allclose` of the two sizes. -/
def sameShape (a b : Shape) : Bool := allclose a.1 b.1 && allclose a.2 b.2

namespace State

/-- After `open`: `sensor` is the size of `images`.
mirrors catkit2/services/zwo_camera/zwo_camera.py:51-58, 112-135 -/
def opened (sensor region : Shape) : State :=
  ⟨region, false, sensor, false, true, false, .test, .idle, []⟩

/-- mirrors catkit2/services/zwo_camera/zwo_camera.py:178-214 -/
def mainStep (s : State) (ok : Bool) : Option State :=
  match s.main with
  | .test => some { s with main := if s.should_shut_down then .ended false else .wait }
  | .wait => some { s with main := if s.should_be_acquiring then .shape else .test }
  | .shape => some { s with main := .height s.images }
  | .height shape => some { s with main := if ok then .width shape s.region.1 else .ended false }
  | .width shape height =>
    if ok then some { s with main := if sameShape shape (height, s.region.2) then .start else .newHeight }
    else some { s with main := .ended false }
  | .newHeight => some { s with main := if ok then .newWidth s.region.1 else .ended false }
  | .newWidth height => some { s with main := if ok then .update (height, s.region.2) else .ended false }
  | .update shape =>
    some (if ok then { s with images := shape, main := .start } else { s with main := .ended false })
  | .start => some (if ok then { s with capturing := true, main := .submitOne } else { s with main := .ended false })
  | .submitOne => some { s with is_acquiring := true, main := .isSet }
  | .isSet => some { s with main := if s.should_be_acquiring then .shouldShutDown else .stop false }
  | .shouldShutDown => some { s with main := if s.should_shut_down then .stop false else .capture }
  | .capture => some { s with main := if ok then .submitImage s.region else .stop true }
  | .submitImage img =>
    some { s with
      submitted := s.submitted ++ [⟨img, s.images, s.capturing, s.is_acquiring⟩]
      main := if ok then .isSet else .stop true }
  | .stop raised =>
    some (if ok then { s with capturing := false, main := .submitZero raised } else { s with main := .ended true })
  | .submitZero raised => some { s with is_acquiring := false, main := if raised then .ended false else .test }
  | .ended _ => none

/-- The camera takes a region that is not larger than its sensor.
mirrors catkit2/services/zwo_camera/zwo_camera.py:26-45, 277-301 -/
def requestStep (sensor : Shape) (s : State) (ok : Bool) : Option State :=
  match s.request with
  | .idle => none
  | .enter d value =>
    some { s with request := if s.is_acquiring then .endAcquisition d value else .getFormat false d value }
  | .endAcquisition d value => some { s with should_be_acquiring := false, request := .waitStopped d value }
  | .waitStopped d value =>
    some { s with request := if s.is_acquiring then .waitStopped d value else .getFormat true d value }
  | .getFormat was_running d value =>
    some { s with request := if ok then .getPosition was_running d value s.region else .exit was_running }
  | .getPosition was_running d value format =>
    some { s with request := if ok then .setFormat was_running (d.set format value) else .exit was_running }
  | .setFormat was_running format =>
    some (if ok && decide (format.1 ≤ sensor.1) && decide (format.2 ≤ sensor.2) then
      { s with region := format, request := .setPosition was_running }
    else { s with request := .exit was_running })
  | .setPosition was_running => some { s with request := .exit was_running }
  | .exit was_running =>
    some { s with should_be_acquiring := s.should_be_acquiring || was_running, request := .idle }

/-- The commands and the setters come one at a time, from the server thread. -/
def step (sensor : Shape) (s : State) : Step → Option State
  | .main ok => s.mainStep ok
  | .request ok => s.requestStep sensor ok
  | .set d value => if s.request = .idle then some { s with request := .enter d value } else none
  | .startAcquisition => if s.request = .idle then some { s with should_be_acquiring := true } else none
  | .endAcquisition => if s.request = .idle then some { s with should_be_acquiring := false } else none
  | .shutDown => some { s with should_shut_down := true }

end State

/-- A camera that was opened with a region. -/
def camera (sensor : Shape) : LTS State Step :=
  .ofFn (fun s => ∃ region : Shape, region.1 ≤ sensor.1 ∧ region.2 ≤ sensor.2 ∧ s = State.opened sensor region) (State.step sensor)

/-- The main thread starts no capture before it is asked to: it is in the loop, on its
way out with nothing that asks it back, or out. -/
def leaves (s : State) : Bool :=
  match s.main with
  | .isSet | .shouldShutDown | .capture | .submitImage _ | .ended _ => true
  | .stop raised | .submitZero raised => raised || !s.should_be_acquiring || s.should_shut_down
  | .test => !s.should_be_acquiring || s.should_shut_down
  | .wait => !s.should_be_acquiring
  | _ => false

/-- No capture is about to start when a setter looks at `is_acquiring`. -/
def settled (s : State) : Step → Bool
  | .request _ =>
    match s.request with
    | .enter _ _ => if s.is_acquiring then leaves s else !s.should_be_acquiring && s.main.parked
    | _ => true
  | _ => true

/-! ## The invariant -/

/-- What the locals of the main thread say of the region. -/
def Read (s : State) : MainAt → Prop
  | .height shape => shape = s.images
  | .width shape height => shape = s.images ∧ height = s.region.1
  | .newWidth height => height = s.region.1
  | .update shape => shape = s.region
  | .submitImage img => img = s.region
  | _ => True

/-- Where the main thread can be, from where the server thread is. -/
def Allowed (s : State) : RequestAt → Prop
  | .idle | .enter _ _ => True
  | .endAcquisition _ _ => leaves s = true
  | .waitStopped _ _ => s.should_be_acquiring = false ∧ (s.main.acquiring = true ∨ s.main.parked = true)
  | _ => s.should_be_acquiring = false ∧ s.main.parked = true

structure Inv (sensor : Shape) (s : State) : Prop where
  capturing : s.capturing = s.main.capturing
  acquiring : s.is_acquiring = s.main.acquiring
  fits : s.region.1 ≤ sensor.1 ∧ s.region.2 ≤ sensor.2
  sized : s.main.sized = true → s.images = s.region
  read : Read s s.main
  allowed : Allowed s s.request
  submitted : ∀ f ∈ s.submitted, f.img = f.images ∧ f.capturing = true ∧ f.acquiring = true

/-- Sizes below a hundred thousand are close when they are equal. -/
theorem eq_of_allclose {a b : Nat} (hb : b < 100000) (h : allclose a b = true) : a = b := by
  unfold allclose at h
  simp only [decide_eq_true_eq] at h
  omega

theorem eq_of_sameShape {sensor a b : Shape} (hsensor : sensor.1 < 100000 ∧ sensor.2 < 100000)
    (hb : b.1 ≤ sensor.1 ∧ b.2 ≤ sensor.2) (h : sameShape a b = true) : a = b := by
  unfold sameShape at h
  simp only [Bool.and_eq_true] at h
  exact Prod.ext (eq_of_allclose (by omega) h.1) (eq_of_allclose (by omega) h.2)

theorem inv_opened {sensor region : Shape} (h : region.1 ≤ sensor.1 ∧ region.2 ≤ sensor.2) :
    Inv sensor (State.opened sensor region) := by
  refine ⟨rfl, rfl, h, fun hs => ?_, trivial, trivial, fun f hf => ?_⟩
  · cases hs
  · cases hf

variable {sensor : Shape} {s s' : State}

/-- What the server thread reads and sets, the main thread does not. -/
theorem mainStep_shared {ok : Bool} (hs : s.mainStep ok = some s') :
    s'.request = s.request ∧ s'.region = s.region ∧ s'.should_be_acquiring = s.should_be_acquiring ∧
      s'.should_shut_down = s.should_shut_down := by
  unfold State.mainStep at hs
  split at hs <;> (try split at hs) <;> cases hs
  all_goals exact ⟨rfl, rfl, rfl, rfl⟩

/-- A loop that comes to its end goes on to. -/
theorem mainStep_leaves {ok : Bool} (hs : s.mainStep ok = some s') (h : leaves s = true) : leaves s' = true := by
  unfold State.mainStep at hs
  split at hs <;> rename_i hmain <;> simp only [hmain, leaves] at h
  all_goals (try split at hs) <;> cases hs
  all_goals simp_all [leaves]

/-- Once it is to stop, a loop that runs comes to its end. -/
theorem mainStep_stops {ok : Bool} (hs : s.mainStep ok = some s') (hflag : s.should_be_acquiring = false)
    (h : s.main.acquiring = true ∨ s.main.parked = true) : s'.main.acquiring = true ∨ s'.main.parked = true := by
  unfold State.mainStep at hs
  split at hs <;> rename_i hmain <;> simp only [hmain, MainAt.acquiring, MainAt.parked] at h
  all_goals (try split at hs) <;> cases hs
  all_goals simp_all [MainAt.acquiring, MainAt.parked]

theorem mainStep_parked {ok : Bool} (hs : s.mainStep ok = some s') (hflag : s.should_be_acquiring = false)
    (h : s.main.parked = true) : s'.main.parked = true := by
  unfold State.mainStep at hs
  split at hs <;> rename_i hmain <;> simp only [hmain, MainAt.parked] at h
  all_goals (try split at hs) <;> cases hs
  all_goals simp_all [MainAt.parked]

theorem mainStep_running {ok : Bool} (hs : s.mainStep ok = some s') (hcap : s.capturing = s.main.capturing)
    (hacq : s.is_acquiring = s.main.acquiring) :
    s'.capturing = s'.main.capturing ∧ s'.is_acquiring = s'.main.acquiring := by
  unfold State.mainStep at hs
  split at hs <;> rename_i hmain <;> simp only [hmain, MainAt.capturing, MainAt.acquiring] at hcap hacq
  all_goals (try split at hs) <;> cases hs
  all_goals grind [MainAt.capturing, MainAt.acquiring]

/-- The stream gets the size of the region before a capture starts. -/
theorem mainStep_sized {ok : Bool} (hsensor : sensor.1 < 100000 ∧ sensor.2 < 100000) (hi : Inv sensor s)
    (hs : s.mainStep ok = some s') :
    (s'.main.sized = true → s'.images = s'.region) ∧ Read s' s'.main := by
  have hsized := hi.sized
  have hread := hi.read
  have hsame : ∀ a, sameShape a s.region = true → a = s.region := fun a h => eq_of_sameShape hsensor hi.fits h
  unfold State.mainStep at hs
  split at hs <;> rename_i hmain <;> simp only [hmain, MainAt.sized, Read] at hsized hread
  all_goals (try split at hs) <;> cases hs
  all_goals grind [MainAt.sized, Read]

theorem mainStep_submitted {ok : Bool} (hi : Inv sensor s) (hs : s.mainStep ok = some s') :
    ∀ f ∈ s'.submitted, f.img = f.images ∧ f.capturing = true ∧ f.acquiring = true := by
  have hold := hi.submitted
  by_cases hmain : ∃ img, s.main = .submitImage img
  · obtain ⟨img, hmain⟩ := hmain
    have himg : img = s.region := by have h := hi.read; rw [hmain] at h; exact h
    have hsize : s.images = s.region := hi.sized (by rw [hmain]; rfl)
    have hcap : s.capturing = true := by rw [hi.capturing, hmain]; rfl
    have hacq : s.is_acquiring = true := by rw [hi.acquiring, hmain]; rfl
    simp only [State.mainStep, hmain, Option.some.injEq] at hs
    subst hs
    intro f hf
    simp only [List.mem_append, List.mem_singleton] at hf
    obtain hf | hf := hf
    · exact hold f hf
    · subst hf
      exact ⟨himg.trans hsize.symm, hcap, hacq⟩
  · have hsame : s'.submitted = s.submitted := by
      unfold State.mainStep at hs
      split at hs <;> (try split at hs) <;> cases hs
      all_goals first
        | rfl
        | exact absurd ⟨_, ‹_›⟩ hmain
    rw [hsame]
    exact hold

theorem Allowed.parked {r : RequestAt} (h : Allowed s r) (hinside : r.inside = true) : s.main.parked = true := by
  unfold Allowed at h
  split at h
  · cases hinside
  · cases hinside
  · cases hinside
  · cases hinside
  · exact h.2

theorem mainStep_allowed {ok : Bool} (hs : s.mainStep ok = some s') {r : RequestAt} (h : Allowed s r) :
    Allowed s' r := by
  obtain ⟨-, -, hflag, -⟩ := mainStep_shared hs
  unfold Allowed at h ⊢
  split at h
  · trivial
  · trivial
  · exact mainStep_leaves hs h
  · exact ⟨hflag ▸ h.1, mainStep_stops hs h.1 h.2⟩
  · exact ⟨hflag ▸ h.1, mainStep_parked hs h.1 h.2⟩

theorem inv_mainStep {ok : Bool} (hsensor : sensor.1 < 100000 ∧ sensor.2 < 100000) (hi : Inv sensor s)
    (hs : s.mainStep ok = some s') : Inv sensor s' := by
  obtain ⟨hreq, hregion, -, -⟩ := mainStep_shared hs
  obtain ⟨hcap, hacq⟩ := mainStep_running hs hi.capturing hi.acquiring
  obtain ⟨hsized, hread⟩ := mainStep_sized hsensor hi hs
  exact ⟨hcap, hacq, by rw [hregion]; exact hi.fits, hsized, hread,
    by rw [hreq]; exact mainStep_allowed hs hi.allowed, mainStep_submitted hi hs⟩

theorem leaves_stops (h : leaves s = true) : s.main.acquiring = true ∨ s.main.parked = true := by
  unfold leaves at h
  split at h <;> rename_i hmain
  case h_5 stuck => cases stuck <;> simp [hmain, MainAt.acquiring, MainAt.parked]
  all_goals first
    | simp [hmain, MainAt.acquiring, MainAt.parked]; done
    | cases h

theorem parked_stopped {m : MainAt} (h : m.parked = true) : m.capturing = false ∧ m.acquiring = false := by
  unfold MainAt.parked at h
  split at h
  all_goals first
    | exact ⟨rfl, rfl⟩
    | cases h

/-- While the main thread is parked, the region may change. -/
theorem parked_frees {m : MainAt} (h : m.parked = true) (t : State) : m.sized = false ∧ Read t m := by
  unfold MainAt.parked at h
  split at h
  all_goals first
    | exact ⟨rfl, trivial⟩
    | cases h

theorem requestStep_allowed {ok : Bool} (hi : Inv sensor s) (hg : settled s (.request ok) = true)
    (hs : s.requestStep sensor ok = some s') : Allowed s' s'.request := by
  have hat := hi.allowed
  unfold State.requestStep at hs
  split at hs <;> rename_i hreq <;> rw [hreq] at hat
  · cases hs
  · simp only [settled, hreq] at hg
    cases hs
    by_cases hrunning : s.is_acquiring = true
    · simp only [hrunning, if_true] at hg ⊢
      exact hg
    · simp only [hrunning, Bool.false_eq_true, if_false, Bool.and_eq_true, Bool.not_eq_true'] at hg ⊢
      exact hg
  · have hstops : s.main.acquiring = true ∨ s.main.parked = true := leaves_stops hat
    cases hs
    exact ⟨rfl, hstops⟩
  · cases hs
    by_cases hrunning : s.is_acquiring = true
    · simp only [hrunning, if_true]
      exact hat
    · simp only [hrunning]
      exact ⟨hat.1, hat.2.resolve_left (by rw [← hi.acquiring]; exact hrunning)⟩
  · cases hs
    cases ok <;> exact hat
  · cases hs
    cases ok <;> exact hat
  · split at hs <;> cases hs <;> exact hat
  · cases hs
    exact hat
  · cases hs
    trivial

theorem inv_requestStep {ok : Bool} (hi : Inv sensor s) (hg : settled s (.request ok) = true)
    (hs : s.requestStep sensor ok = some s') : Inv sensor s' := by
  have hallowed := requestStep_allowed hi hg hs
  have hat := hi.allowed
  unfold State.requestStep at hs
  split at hs <;> rename_i hreq <;> rw [hreq] at hat
  · cases hs
  case h_7 was_running format =>
    split at hs <;> rename_i hfits <;> cases hs
    · simp only [Bool.and_eq_true, decide_eq_true_eq] at hfits
      exact ⟨hi.capturing, hi.acquiring, ⟨hfits.1.2, hfits.2⟩,
        fun h => absurd ((parked_frees hat.2 s).1.symm.trans h) Bool.false_ne_true, (parked_frees hat.2 _).2,
        hallowed, hi.submitted⟩
    · exact ⟨hi.capturing, hi.acquiring, hi.fits, hi.sized, hi.read, hallowed, hi.submitted⟩
  all_goals
    cases hs
    exact ⟨hi.capturing, hi.acquiring, hi.fits, hi.sized, hi.read, hallowed, hi.submitted⟩

theorem leaves_shutDown (h : leaves s = true) : leaves { s with should_shut_down := true } = true := by
  unfold leaves at h ⊢
  split at h <;> rename_i hmain <;> simp_all

theorem Allowed.shutDown {r : RequestAt} (h : Allowed s r) : Allowed { s with should_shut_down := true } r := by
  unfold Allowed at h ⊢
  split at h
  · trivial
  · trivial
  · exact leaves_shutDown h
  · exact h
  · exact h

theorem inv_step (hsensor : sensor.1 < 100000 ∧ sensor.2 < 100000) (hi : Inv sensor s) {l : Step}
    (hg : settled s l = true) (hs : s.step sensor l = some s') : Inv sensor s' := by
  unfold State.step at hs
  split at hs
  · exact inv_mainStep hsensor hi hs
  · exact inv_requestStep hi hg hs
  · split at hs <;> cases hs
    exact ⟨hi.capturing, hi.acquiring, hi.fits, hi.sized, hi.read, trivial, hi.submitted⟩
  · split at hs <;> rename_i hidle <;> cases hs
    exact ⟨hi.capturing, hi.acquiring, hi.fits, hi.sized, hi.read, by rw [hidle]; trivial, hi.submitted⟩
  · split at hs <;> rename_i hidle <;> cases hs
    exact ⟨hi.capturing, hi.acquiring, hi.fits, hi.sized, hi.read, by rw [hidle]; trivial, hi.submitted⟩
  · cases hs
    exact ⟨hi.capturing, hi.acquiring, hi.fits, hi.sized, hi.read, hi.allowed.shutDown, hi.submitted⟩

/-- The camera as long as every setter looks when no capture is about to start. -/
def settledCamera (sensor : Shape) : LTS State Step := (camera sensor).restrict fun s l => settled s l = true

theorem inv_inductive (hsensor : sensor.1 < 100000 ∧ sensor.2 < 100000) : (settledCamera sensor).Inductive (Inv sensor) where
  init s h := by
    obtain ⟨region, h1, h2, heq⟩ := h
    subst heq
    exact inv_opened ⟨h1, h2⟩
  step s l s' hi hs := inv_step hsensor hi hs.1 hs.2

/-! ## The frames -/

/-- Every frame was captured by a running camera and has the size of the stream it went to.
The region changes only while nothing is captured, and a main thread that has left without an
error in `stop_video_capture` has stopped the camera. -/
theorem frames_fit (hsensor : sensor.1 < 100000 ∧ sensor.2 < 100000) (h : (settledCamera sensor).Reachable s) :
    (∀ f ∈ s.submitted, f.img = f.images ∧ f.capturing = true ∧ f.acquiring = true) ∧
      (s.request.inside = true ∨ s.main = .ended false → s.capturing = false ∧ s.is_acquiring = false) := by
  have hi := (inv_inductive hsensor).reachable s h
  refine ⟨hi.submitted, fun hquiet => ?_⟩
  have hparked : s.main.parked = true := by
    obtain hinside | hended := hquiet
    · exact hi.allowed.parked hinside
    · rw [hended]; rfl
  rw [hi.capturing, hi.acquiring]
  exact parked_stopped hparked

/-- A frame, a width of 2 while the next one is captured, and a frame of the new width. -/
def twoWidths : List Step :=
  List.replicate 10 (.main true) ++ [.set .width 2, .request true, .main true, .request true] ++
    List.replicate 4 (.main true) ++ List.replicate 6 (.request true) ++ List.replicate 13 (.main true)

theorem frames_fit_twoWidths :
    ∃ s : State, s.submitted.map (·.img) = [(4, 6), (4, 2)] ∧
      ∀ f ∈ s.submitted, f.img = f.images ∧ f.capturing = true ∧ f.acquiring = true := by
  have hrun : ∃ s, LTS.exec (LTS.guarded (fun s l => settled s l = true) (State.step (4, 6))) (State.opened (4, 6) (4, 6)) twoWidths
      = some s ∧ s.submitted.map (·.img) = [(4, 6), (4, 2)] := by
    refine ⟨_, rfl, ?_⟩
    decide
  obtain ⟨s, hexec, himgs⟩ := hrun
  have hreach : (settledCamera (4, 6)).Reachable s :=
    LTS.Reachable.of_guarded ⟨(4, 6), by decide, by decide, rfl⟩ hexec
  exact ⟨s, himgs, (frames_fit (by decide) hreach).1⟩

/-- A setter that looks between `update_parameters` and `start_video_capture` sets the
region of a camera that starts: the next frame has not the size of the stream. -/
theorem setter_races :
    ∃ s, (camera (4, 6)).Reachable s ∧ ∃ f ∈ s.submitted, f.img = (4, 2) ∧ f.images = (4, 6) := by
  have hrun : ∃ s, LTS.exec (State.step (4, 6)) (State.opened (4, 6) (4, 6)) (List.replicate 5 (.main true) ++ [.set .width 2] ++
      List.replicate 4 (.request true) ++ List.replicate 6 (.main true)) = some s ∧
      ∃ f ∈ s.submitted, f.img = (4, 2) ∧ f.images = (4, 6) := by
    refine ⟨_, rfl, ⟨(4, 2), (4, 6), true, true⟩, ?_, rfl, rfl⟩
    exact List.mem_singleton.mpr rfl
  obtain ⟨s, hexec, hf⟩ := hrun
  exact ⟨s, LTS.Reachable.of_exec ⟨(4, 6), by decide, by decide, rfl⟩ hexec, hf⟩

end Catkit2.L5.ZwoCamera
