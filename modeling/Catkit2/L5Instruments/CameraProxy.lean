import Catkit2.L2Stream.GetNextFrame

/-!
# Taking exposures (catkit2/testbed/proxies/camera.py)

`take_raw_exposures` runs beside the camera that fills the `images` stream.
It reads whether the camera is acquiring, asks it to start if it is not, reads
the newest frame id, and from there on gets one frame after the other. The
ring keeps the frames of earlier acquisitions, and a camera that has just been
asked to start has not submitted any new one.

The camera submits frames one at a time whenever it likes, changes the layout
between two frames, and says that it is acquiring or not at any time; what
`start_acquisition` and `end_acquisition` make it do is among that. The bytes
of the frames are left out: a frame is its id. `get_frame` is the reader of
`GetFrame`, one read at a time.

* `inv_step`: what is yielded increases, and was submitted since the start.
* `frames_fresh`: in runs in which the first frame asked for is not an old one
  that is still available, every yielded frame is new.
-/
namespace Catkit2.L5.CameraProxy

open Catkit2.L1 Catkit2.L2

/-! ## The generator -/

/-- `first_frame_id`, `i` and `num_exposures_remaining`, and `was_acquiring`. -/
structure Exposures where
  was_acquiring : Bool
  first_frame_id : Nat
  i : Nat
  num_exposures_remaining : Int

/-- The id that the loop asks for. -/
def Exposures.id (l : Exposures) : Nat := l.first_frame_id + l.i

/-- Where the generator is. -/
inductive Generator where
  | created (num_exposures : Int)
  /-- Before `start_acquisition`. -/
  | idle (num_exposures : Int)
  /-- Before the newest frame id is read. -/
  | acquiring (was_acquiring : Bool) (num_exposures : Int)
  /-- At the test of the loop. -/
  | loop (l : Exposures)
  /-- In `get_frame`. -/
  | fetching (l : Exposures) (f : Fetching)
  /-- At the `yield`. -/
  | suspended (l : Exposures)
  | finished

namespace Generator

/-- The locals, once they are bound. -/
def exposures : Generator → Option Exposures
  | .loop l | .fetching l _ | .suspended l => some l
  | _ => none

/-- The body has started to run. -/
def running : Generator → Bool
  | .created _ => false
  | _ => true

/-- The loop has not been reached. -/
def preparing : Generator → Bool
  | .created _ | .idle _ | .acquiring _ _ => true
  | _ => false

theorem preparing_of_not_running {g : Generator} (h : g.running = false) : g.preparing = true := by
  cases g with
  | created n => rfl
  | _ => cases h

end Generator

/-! ## The generator and the camera -/

/-- `requested` is the frame that the camera is filling, `isAcquiring` the
newest value of that stream. `start`, `submitted` and `yielded` are what
happened since the generator started: the end of the stream then, and ids. -/
structure Taking where
  images : DataStream
  requested : Option Nat
  isAcquiring : Option Bool
  generator : Generator
  start : Nat
  submitted : List Nat
  yielded : List Nat

inductive CameraStep where
  | requestNewFrame
  | submitFrame (timeStamp : UInt64)
  | updateParameters (type : DataType) (dimensions : List UInt64) (numFramesInBuffer : Nat)
  | setAcquiring (acquiring : Bool)

inductive TakeStep where
  | camera (c : CameraStep)
  /-- The first `next`. -/
  | run
  /-- `start_acquisition` returns, or raises. -/
  | startAcquisition (ok : Bool)
  | newestFrameId
  | test
  /-- One read of `get_frame`. -/
  | read
  /-- `get_frame` stops waiting: with a `RuntimeError`, or with what the error
  check raises. -/
  | giveUp (runtimeError : Bool)
  /-- A further `next`, or `close`. -/
  | resume
  | close

namespace Taking

/-- mirrors catkit2/services/zwo_camera/zwo_camera.py:188-214 -/
def cameraStep (st : Taking) : CameraStep → Option Taking
  | .requestNewFrame =>
    match st.requested with
    | none => some { st with
        images := st.images.requestNewFrame.2
        requested := some st.images.requestNewFrame.1.id }
    | some _ => none
  | .submitFrame timeStamp =>
    match st.requested with
    | some id => some { st with
        images := st.images.submitFrame id timeStamp
        requested := none
        submitted := if st.generator.running then st.submitted ++ [id] else st.submitted }
    | none => none
  | .updateParameters type dimensions numFramesInBuffer =>
    if st.requested = none ∧ 1 ≤ numFramesInBuffer then
      match st.images.updateParameters type dimensions numFramesInBuffer with
      | .ok s => some { st with images := s }
      | .error _ => none
    else none
  | .setAcquiring acquiring => some { st with isAcquiring := some acquiring }

/-- What the loop does with the result of a read of `get_frame`. -/
def fetched (st : Taking) (l : Exposures) : Fetching → Taking
  | .returned frame => { st with
      generator := .suspended { l with i := l.i + 1 }
      yielded := st.yielded ++ [frame.id] }
  | .threw _ => { st with generator := .loop { l with i := l.i + 1 } }
  | f => { st with generator := .fetching l f }

/-- mirrors catkit2/testbed/proxies/camera.py:7-38 -/
def step (st : Taking) : TakeStep → Option Taking
  | .camera c => st.cameraStep c
  | .run =>
    match st.generator with
    | .created n =>
      let st := { st with start := st.images.lastId }
      match st.isAcquiring with
      | none => some { st with generator := .finished }
      | some true => some { st with generator := .acquiring true n }
      | some false => some { st with generator := .idle n }
    | _ => none
  | .startAcquisition ok =>
    match st.generator with
    | .idle n => some { st with generator := if ok then .acquiring false n else .finished }
    | _ => none
  | .newestFrameId =>
    match st.generator with
    | .acquiring was n =>
      -- ignore first two frames
      let first := st.images.getNewestAvailableFrameId + if was then 2 else 0
      some { st with generator := .loop ⟨was, first, 0, n⟩ }
    | _ => none
  | .test =>
    match st.generator with
    | .loop l =>
      some { st with
        generator := if l.num_exposures_remaining ≥ 1 then .fetching l (.first l.id true) else .finished }
    | _ => none
  | .read =>
    match st.generator with
    | .fetching l f => (f.read st.images).map fun f' => st.fetched l f'
    | _ => none
  | .giveUp runtimeError =>
    match st.generator with
    | .fetching l (.waiting _) =>
      some { st with generator := if runtimeError then .loop { l with i := l.i + 1 } else .finished }
    | _ => none
  | .resume =>
    match st.generator with
    | .suspended l =>
      some { st with
        generator := .loop { l with num_exposures_remaining := l.num_exposures_remaining - 1 } }
    | _ => none
  | .close =>
    match st.generator with
    | .suspended _ => some { st with generator := .finished }
    | _ => none

def init (st : Taking) : Prop :=
  Created st.images ∧ st.requested = none ∧ (∃ n, st.generator = .created n) ∧
    st.start = 0 ∧ st.submitted = [] ∧ st.yielded = []

/-- Every frame yielded was submitted since the start, in increasing order. -/
def Fresh (st : Taking) : Prop :=
  (∀ id ∈ st.yielded, id ∈ st.submitted) ∧ st.yielded.Pairwise (· < ·)

/-- The first frame asked for of a camera that was not acquiring is a new one,
or the old one is not available any more. -/
def NotStale (st : Taking) : TakeStep → Prop
  | .read =>
    match st.generator with
    | .fetching l (.first id _) => l.was_acquiring = true ∨ l.i ≠ 0 ∨ st.start ≤ id ∨
        st.images.isFrameAvailable id = false
    | _ => True
  | _ => True

instance (st : Taking) (l : TakeStep) : Decidable (st.NotStale l) := by
  unfold NotStale; split
  · split <;> exact inferInstance
  · exact inferInstance

end Taking

def taking : LTS Taking TakeStep := .ofFn Taking.init Taking.step

/-! ## The invariant -/

namespace Taking

/-- What a call of `get_frame` knows once it has found the frame not retired:
it is a new one. -/
def Past (st : Taking) : Fetching → Prop
  | .first _ _ => True
  | .willBe id _ => st.start ≤ id ∨ id < st.images.firstId
  | .last id _ | .waiting id | .pointer id | .stamp id _ | .shape id _ _ => st.start ≤ id
  | .returned _ | .threw _ => True

/-- Only the very first id may be that of an old frame, and what was yielded
lies below the next id. -/
structure Based (st : Taking) (l : Exposures) : Prop where
  first : st.start ≤ l.first_frame_id + 1
  acquiring : l.was_acquiring = true → st.start ≤ l.first_frame_id
  below : ∀ id ∈ st.yielded, id < l.id

structure Fetched (st : Taking) (l : Exposures) (f : Fetching) : Prop where
  target : f.target = some l.id
  submitted : ∀ id, f.reads = some id → id < st.images.lastId
  past : st.Past f

/-- The camera submits one frame at a time, and `submitted` is the end of the
stream from `start` on. -/
structure Inv (st : Taking) : Prop where
  pos : 1 ≤ st.images.numFramesInBuffer
  edges : st.images.firstId ≤ st.images.lastId
  idle : st.requested = none → st.images.nextRequestId = st.images.lastId
  filling : ∀ id, st.requested = some id →
    id = st.images.lastId ∧ st.images.nextRequestId = st.images.lastId + 1
  started : st.start ≤ st.images.lastId
  since : st.generator.running = true →
    ∀ id, id ∈ st.submitted ↔ st.start ≤ id ∧ id < st.images.lastId
  before : st.generator.running = false → st.submitted = []
  nothing : st.generator.preparing = true → st.yielded = []
  based : ∀ l, st.generator.exposures = some l → st.Based l
  fetched : ∀ l f, st.generator = .fetching l f → st.Fetched l f
  new : ∀ id ∈ st.yielded, st.start ≤ id ∧ id < st.images.lastId
  increasing : st.yielded.Pairwise (· < ·)

variable {st st' : Taking}

theorem Inv.fresh (h : st.Inv) : st.Fresh := by
  refine ⟨fun id hid => ?_, h.increasing⟩
  cases hrun : st.generator.running with
  | true => exact (h.since hrun id).mpr (h.new id hid)
  | false =>
    rw [h.nothing (Generator.preparing_of_not_running hrun)] at hid
    cases hid

theorem Inv.of_init (h : st.init) : st.Inv := by
  obtain ⟨hc, hreq, ⟨n, hgen⟩, hstart, hsub, hyield⟩ := h
  have hw := OneWriter.of_created hc
  refine ⟨hw.pos, hw.first_le_last, fun _ => hw.last_eq_next.symm, ?_, ?_, ?_, fun _ => hsub,
    fun _ => hyield, ?_, ?_, ?_, ?_⟩
  · intro id hid
    rw [hreq] at hid
    cases hid
  · omega
  · intro hrun
    rw [hgen] at hrun
    cases hrun
  · intro l hl
    rw [hgen] at hl
    cases hl
  · intro l f hf
    rw [hgen] at hf
    cases hf
  · simp [hyield]
  · simp [hyield]

/-! ## Steps of the camera -/

/-- The camera moves the ends of the stream forward. -/
theorem Inv.advance (h : st.Inv) {images : DataStream} {requested : Option Nat} {acquiring : Option Bool}
    {submitted : List Nat}
    (hpos : 1 ≤ images.numFramesInBuffer) (hedges : images.firstId ≤ images.lastId)
    (hfirst : st.images.firstId ≤ images.firstId) (hlast : st.images.lastId ≤ images.lastId)
    (hidle : requested = none → images.nextRequestId = images.lastId)
    (hfilling : ∀ id, requested = some id → id = images.lastId ∧ images.nextRequestId = images.lastId + 1)
    (hsince : st.generator.running = true →
      ∀ id, id ∈ submitted ↔ st.start ≤ id ∧ id < images.lastId)
    (hbefore : st.generator.running = false → submitted = st.submitted) :
    Inv { st with
      images := images, requested := requested, isAcquiring := acquiring, submitted := submitted } := by
  refine ⟨hpos, hedges, hidle, hfilling, h.started.trans hlast, hsince, ?_, h.nothing, ?_, ?_, ?_, h.increasing⟩
  · intro hrun
    exact (hbefore hrun).trans (h.before hrun)
  · intro l hl
    obtain ⟨h1, h2, h3⟩ := h.based l hl
    exact ⟨h1, h2, h3⟩
  · intro l f hf
    obtain ⟨ht, hs, hp⟩ := h.fetched l f hf
    refine ⟨ht, fun id hid => (hs id hid).trans_le hlast, ?_⟩
    cases f with
    | willBe id wait => exact hp.imp_right fun hlt => hlt.trans_le hfirst
    | _ => exact hp
  · intro id hid
    exact ⟨(h.new id hid).1, (h.new id hid).2.trans_le hlast⟩

theorem Inv.camera {c : CameraStep} (h : st.Inv) (hs : st.cameraStep c = some st') : st'.Inv := by
  have hpos := h.pos
  have hedges := h.edges
  cases c with
  | requestNewFrame =>
    simp only [cameraStep] at hs
    split at hs
    · rename_i hreq
      cases hs
      have hnext := h.idle hreq
      have hf : st.images.firstId ≤ st.images.requestNewFrame.2.firstId ∧
          st.images.requestNewFrame.2.firstId ≤ st.images.lastId := by
        show st.images.firstId ≤ ite _ _ _ ∧ ite _ _ _ ≤ st.images.lastId
        split <;> omega
      refine h.advance hpos hf.2 hf.1 (Nat.le_refl _) (fun hn => by cases hn) ?_ h.since fun _ => rfl
      intro id hid
      cases hid
      exact ⟨hnext, congrArg (· + 1) hnext⟩
    · cases hs
  | submitFrame ts =>
    simp only [cameraStep] at hs
    split at hs
    · rename_i id hreq
      cases hs
      obtain ⟨rfl, hnext⟩ := h.filling id hreq
      have hlast : (st.images.submitFrame st.images.lastId ts).lastId = st.images.lastId + 1 := by
        show ite _ _ _ = _
        split <;> omega
      have hle : st.images.lastId ≤ st.images.lastId + 1 := Nat.le_succ _
      refine h.advance hpos ?_ (Nat.le_refl _) ?_ (fun _ => ?_) (fun id hid => by cases hid) ?_ ?_
      · rw [hlast]
        exact hedges.trans hle
      · rw [hlast]
        exact hle
      · rw [hlast]
        exact hnext
      · intro hrun id
        have hstarted := h.started
        rw [hlast, if_pos hrun, List.mem_append, h.since hrun, List.mem_singleton]
        omega
      · intro hrun
        rw [if_neg (by simp [hrun])]
    · cases hs
  | updateParameters type dims n =>
    simp only [cameraStep] at hs
    split at hs
    · rename_i hg
      split at hs
      · rename_i s hok
        cases hs
        obtain ⟨-, -, -, rfl⟩ := DataStream.updateParameters_ok hok
        have hnext := h.idle hg.1
        exact h.advance hg.2 (Nat.le_refl _) hedges (Nat.le_refl _) (fun _ => hnext) h.filling h.since
          fun _ => rfl
      · cases hs
    · cases hs
  | setAcquiring b =>
    cases hs
    exact h.advance hpos hedges (Nat.le_refl _) (Nat.le_refl _) h.idle h.filling h.since fun _ => rfl

/-! ## Steps of the generator -/

/-- The generator goes on, and yields nothing. -/
theorem Inv.move (h : st.Inv) {g : Generator} (hrun : st.generator.running = true)
    (hg : g.running = true) (hnothing : g.preparing = true → st.yielded = [])
    (hbased : ∀ l, g.exposures = some l → st.Based l)
    (hfetched : ∀ l f, g = .fetching l f → st.Fetched l f) : Inv { st with generator := g } := by
  refine ⟨h.pos, h.edges, h.idle, h.filling, h.started, fun _ => h.since hrun, ?_, hnothing, ?_, ?_, h.new,
    h.increasing⟩
  · intro hn
    rw [hg] at hn
    cases hn
  · intro l hl
    obtain ⟨h1, h2, h3⟩ := hbased l hl
    exact ⟨h1, h2, h3⟩
  · intro l f hf
    obtain ⟨h1, h2, h3⟩ := hfetched l f hf
    refine ⟨h1, h2, ?_⟩
    cases f <;> exact h3

/-- The next id is that of a later frame. -/
theorem Based.next {l : Exposures} (h : st.Based l) : st.Based { l with i := l.i + 1 } := by
  refine ⟨h.first, h.acquiring, fun id hid => ?_⟩
  have hlt := h.below id hid
  simp only [Exposures.id] at hlt ⊢
  omega

theorem Inv.finished (h : st.Inv) (hrun : st.generator.running = true) :
    Inv { st with generator := .finished } :=
  h.move hrun rfl (fun hp => by cases hp) (fun _ hl => by cases hl) fun _ _ hf => by cases hf

theorem Inv.loop (h : st.Inv) (hrun : st.generator.running = true) {l : Exposures} (hl : st.Based l) :
    Inv { st with generator := .loop l } :=
  h.move hrun rfl (fun hp => by cases hp) (fun _ he => by cases he; exact hl) fun _ _ hf => by cases hf

theorem Inv.fetching (h : st.Inv) (hrun : st.generator.running = true) {l : Exposures} {f : Fetching}
    (hl : st.Based l) (hf : st.Fetched l f) : Inv { st with generator := .fetching l f } :=
  h.move hrun rfl (fun hp => by cases hp) (fun _ he => by cases he; exact hl)
    fun _ _ he => by cases he; exact hf

/-- A frame that was submitted since the start is yielded. -/
theorem Inv.yielded (h : st.Inv) (hrun : st.generator.running = true) {l : Exposures} (hl : st.Based l)
    (hnew : st.start ≤ l.id ∧ l.id < st.images.lastId) :
    Inv { st with generator := .suspended { l with i := l.i + 1 }, yielded := st.yielded ++ [l.id] } := by
  refine ⟨h.pos, h.edges, h.idle, h.filling, h.started, fun _ => h.since hrun, ?_, fun hp => (by cases hp),
    ?_, ?_, ?_, ?_⟩
  · intro hn
    cases hn
  · intro l' he
    cases he
    obtain ⟨h1, h2, h3⟩ := hl
    refine ⟨h1, h2, fun id hid => ?_⟩
    simp only [Exposures.id] at h3 hid ⊢
    rcases List.mem_append.mp hid with hid | hid
    · have hlt := h3 id hid
      omega
    · rw [List.mem_singleton.mp hid]
      omega
  · intro l' f hf
    cases hf
  · intro id hid
    rcases List.mem_append.mp hid with hid | hid
    · exact h.new id hid
    · rw [List.mem_singleton.mp hid]
      exact hnew
  · refine List.pairwise_append.mpr ⟨h.increasing, List.pairwise_singleton _ _, fun id hid id' hid' => ?_⟩
    rw [List.mem_singleton.mp hid']
    exact hl.below id hid

/-- The frame that was found available, or submitted in the meantime, is new. -/
theorem Inv.read (h : st.Inv) {l : Exposures} {f f' : Fetching} (hgen : st.generator = .fetching l f)
    (hk : st.NotStale .read) (hr : f.read st.images = some f') : (st.fetched l f').Inv := by
  have hrun : st.generator.running = true := by
    rw [hgen]
    rfl
  have hl : st.Based l := h.based l (by rw [hgen]; rfl)
  obtain ⟨ht, hsub, hpast⟩ := h.fetched l f hgen
  have hstarted := h.started
  cases f with
  | first id wait =>
    cases ht
    simp only [Fetching.read, Option.some.injEq] at hr
    subst hr
    simp only [NotStale, hgen] at hk
    split
    · rename_i hge
      refine h.fetching hrun hl ⟨rfl, fun _ hid => (by cases hid), ?_⟩
      show st.start ≤ l.id
      obtain ⟨h1, h2, h3⟩ := hl
      simp only [Exposures.id] at hk hge ⊢
      rcases hk with hwas | hi | hnew | hav
      · have hfirst := h2 hwas
        omega
      · omega
      · exact hnew
      · rw [← Bool.not_eq_true, DataStream.isFrameAvailable_iff] at hav
        omega
    · rename_i hlt
      exact h.fetching hrun hl ⟨rfl, fun _ hid => (by cases hid), .inr (Nat.lt_of_not_le hlt)⟩
  | last id wait =>
    cases ht
    simp only [Fetching.read, Option.some.injEq] at hr
    subst hr
    split
    · rename_i hlt
      exact h.fetching hrun hl ⟨rfl, fun _ hid => (by cases hid; exact hlt), hpast⟩
    · exact h.fetching hrun hl ⟨rfl, fun _ hid => (by cases hid), .inl hpast⟩
  | willBe id wait =>
    cases ht
    simp only [Fetching.read, Option.some.injEq] at hr
    subst hr
    split
    · exact h.loop hrun hl.next
    · rename_i hge
      split
      · exact h.loop hrun hl.next
      · refine h.fetching hrun hl ⟨rfl, fun _ hid => (by cases hid), ?_⟩
        exact hpast.resolve_right fun hlt => hge (Nat.not_le_of_lt hlt)
  | waiting id =>
    cases ht
    simp only [Fetching.read, Option.some.injEq] at hr
    subst hr
    split
    · rename_i hlt
      exact h.fetching hrun hl ⟨rfl, fun _ hid => (by cases hid; exact hlt), hpast⟩
    · exact h.fetching hrun hl ⟨rfl, fun _ hid => (by cases hid), hpast⟩
  | pointer id =>
    cases hr
    exact h.fetching hrun hl ⟨ht, hsub, hpast⟩
  | stamp id data =>
    cases hr
    exact h.fetching hrun hl ⟨ht, hsub, hpast⟩
  | shape id data ts =>
    cases hr
    cases ht
    exact h.yielded hrun hl ⟨hpast, hsub _ rfl⟩
  | returned frame => cases hr
  | threw msg => cases hr

/-- Where the generator starts from: at most the newest old frame, and a new
one when the camera was acquiring. -/
theorem Inv.based_newest (h : st.Inv) {was : Bool} {n : Int} (hyield : st.yielded = []) :
    st.Based ⟨was, st.images.getNewestAvailableFrameId + if was then 2 else 0, 0, n⟩ := by
  have hstarted := h.started
  have hnewest : st.images.lastId ≤ st.images.getNewestAvailableFrameId + 1 := by
    unfold DataStream.getNewestAvailableFrameId
    split <;> omega
  refine ⟨?_, ?_, by simp [hyield]⟩
  · dsimp only
    omega
  · intro hwas
    dsimp only at hwas ⊢
    rw [if_pos hwas]
    omega

/-- The generator starts to run: nothing has been submitted since. -/
theorem Inv.run (h : st.Inv) (hrun : st.generator.running = false) {g : Generator}
    (hg : g.exposures = none) (hf : ∀ l f, g ≠ .fetching l f) (hgr : g.running = true) :
    Inv { st with start := st.images.lastId, generator := g } := by
  have hyield := h.nothing (Generator.preparing_of_not_running hrun)
  have hsub := h.before hrun
  refine ⟨h.pos, h.edges, h.idle, h.filling, Nat.le_refl _, fun _ id => ?_, fun hn => ?_, fun _ => hyield,
    fun l hl => ?_, fun l f he => absurd he (hf l f), ?_, h.increasing⟩
  · simp only [hsub, List.not_mem_nil, false_iff]
    omega
  · rw [hgr] at hn
    cases hn
  · rw [hg] at hl
    cases hl
  · simp [hyield]

/-- **Every step** but one that finds an old frame still available. -/
theorem inv_step {l : TakeStep} (h : st.Inv) (hk : st.NotStale l) (hs : st.step l = some st') : st'.Inv := by
  have hrunning : ∀ g, st.generator = g → g.running = true → st.generator.running = true := by
    intro g hg hr
    rw [hg]
    exact hr
  cases l with
  | camera c => exact h.camera hs
  | run =>
    simp only [step] at hs
    split at hs
    · rename_i n hgen
      have hrun : st.generator.running = false := by
        rw [hgen]
        rfl
      split at hs
      · cases hs
        exact h.run hrun rfl (fun _ _ he => by cases he) rfl
      · cases hs
        exact h.run hrun rfl (fun _ _ he => by cases he) rfl
      · cases hs
        exact h.run hrun rfl (fun _ _ he => by cases he) rfl
    · cases hs
  | startAcquisition ok =>
    simp only [step] at hs
    split at hs
    · rename_i n hgen
      cases hs
      have hrun := hrunning _ hgen rfl
      cases ok with
      | true =>
        exact h.move hrun rfl (fun _ => h.nothing (by rw [hgen]; rfl)) (fun _ he => by cases he)
          fun _ _ he => by cases he
      | false => exact h.finished hrun
    · cases hs
  | newestFrameId =>
    simp only [step] at hs
    split at hs
    · rename_i was n hgen
      cases hs
      exact h.loop (hrunning _ hgen rfl) (h.based_newest (h.nothing (by rw [hgen]; rfl)))
    · cases hs
  | test =>
    simp only [step] at hs
    split at hs
    · rename_i l hgen
      cases hs
      have hrun := hrunning _ hgen rfl
      have hl : st.Based l := h.based l (by rw [hgen]; rfl)
      split
      · exact h.fetching hrun hl ⟨rfl, fun _ hid => (by cases hid), trivial⟩
      · exact h.finished hrun
    · cases hs
  | read =>
    simp only [step] at hs
    split at hs
    · rename_i l f hgen
      obtain ⟨f', hr, rfl⟩ := Option.map_eq_some_iff.mp hs
      exact h.read hgen hk hr
    · cases hs
  | giveUp runtimeError =>
    simp only [step] at hs
    split at hs
    · rename_i l id hgen
      cases hs
      have hrun := hrunning _ hgen rfl
      have hl : st.Based l := h.based l (by rw [hgen]; rfl)
      cases runtimeError with
      | true => exact h.loop hrun hl.next
      | false => exact h.finished hrun
    · cases hs
  | resume =>
    simp only [step] at hs
    split at hs
    · rename_i l hgen
      cases hs
      obtain ⟨h1, h2, h3⟩ := h.based l (by rw [hgen]; rfl)
      exact h.loop (hrunning _ hgen rfl) ⟨h1, h2, h3⟩
    · cases hs
  | close =>
    simp only [step] at hs
    split at hs
    · rename_i l hgen
      cases hs
      exact h.finished (hrunning _ hgen rfl)
    · cases hs

/-! ## An old frame -/

/-- The generator goes on by itself and yields a frame that is not fresh. -/
def WillBeStale (st : Taking) : Prop :=
  ∃ k st', taking.Run st (List.replicate k .read) st' ∧ ¬ st'.Fresh

/-- **The other way.** An old frame that is found available is yielded. -/
theorem willBeStale_of_stale (h : st.Inv) (hk : ¬ st.NotStale .read) : st.WillBeStale := by
  obtain ⟨l, id, wait, hgen⟩ : ∃ l id wait, st.generator = .fetching l (.first id wait) := by
    simp only [NotStale] at hk
    split at hk
    · exact ⟨_, _, _, ‹_›⟩
    · exact absurd trivial hk
  simp only [NotStale, hgen, not_or, Bool.not_eq_false] at hk
  obtain ⟨-, -, hold, hav⟩ := hk
  rw [DataStream.isFrameAvailable_iff] at hav
  have hrun : st.generator.running = true := by
    rw [hgen]
    rfl
  have hfirst : st.step .read = some { st with generator := .fetching l (.last id wait) } := by
    simp [step, hgen, Fetching.read, fetched, hav.1]
  have hlast : step { st with generator := .fetching l (.last id wait) } .read =
      some { st with generator := .fetching l (.pointer id) } := by
    simp [step, Fetching.read, fetched, hav.2]
  refine ⟨5, _, .cons hfirst (.cons hlast (.cons rfl (.cons rfl (.cons rfl (.nil _))))), fun hfresh => ?_⟩
  have hmem : id ∈ st.submitted := hfresh.1 id (List.mem_append_right _ (List.mem_singleton_self id))
  exact hold ((h.since hrun id).mp hmem).1

end Taking

open Taking

/-- **Fresh frames.** In every run in which the first frame asked for of a
camera that was not acquiring is no old frame that is still available, every
frame yielded was submitted since the generator started, and their ids
increase. An old frame that is still available is yielded. -/
theorem frames_fresh (st : Taking) (h : (taking.restrict NotStale).Reachable st) :
    st.Fresh ∧ (¬ st.NotStale .read → st.WillBeStale) := by
  have hind : (taking.restrict NotStale).Inductive Inv :=
    ⟨fun _ hi => .of_init hi, fun _ _ _ hi hs => inv_step hi hs.1 hs.2⟩
  have hinv := hind.reachable st h
  exact ⟨hinv.fresh, willBeStale_of_stale hinv⟩

/-- A camera that is not acquiring, and a generator that has not run. -/
def Taking.fresh (s : DataStream) (num_exposures : Int) : Taking :=
  ⟨s, none, some false, .created num_exposures, 0, [], []⟩

def submitOne : List TakeStep := [.camera .requestNewFrame, .camera (.submitFrame 10)]

/-- `take_raw_exposures` up to the first call of `get_frame`. -/
def firstCall : List TakeStep := [.run, .startAcquisition true, .newestFrameId, .test]

theorem frames_fresh_first : ∃ st : Taking, st.yielded = [0] ∧ st.Fresh := by
  obtain ⟨s, hs, st, hst, hyield⟩ : ∃ s, DataStream.create .uint8 [1] 2 = .ok s ∧ ∃ st,
      LTS.exec (LTS.guarded NotStale Taking.step) (Taking.fresh s 1)
        (firstCall ++ submitOne ++ List.replicate 5 .read) = some st ∧ st.yielded = [0] :=
    ⟨_, rfl, _, rfl, rfl⟩
  have hreach : (taking.restrict NotStale).Reachable st :=
    .of_guarded ⟨⟨.uint8, [1], 2, by decide, hs⟩, rfl, ⟨1, rfl⟩, rfl, rfl, rfl⟩ hst
  exact ⟨st, hyield, (frames_fresh st hreach).1⟩

/-- **The counterexample.** The camera has submitted a frame before, and is
not acquiring: that frame is the first one taken. -/
theorem old_frame_yielded : ¬ ∀ st, taking.Reachable st → st.Fresh := by
  intro h
  obtain ⟨s, hs, st, hst, hyield, hsub⟩ : ∃ s, DataStream.create .uint8 [1] 2 = .ok s ∧ ∃ st,
      LTS.exec Taking.step (Taking.fresh s 1) (submitOne ++ firstCall ++ List.replicate 5 .read) = some st ∧
        st.yielded = [0] ∧ st.submitted = [] :=
    ⟨_, rfl, _, rfl, rfl, rfl⟩
  have hinit : (Taking.fresh s 1).init :=
    ⟨⟨.uint8, [1], 2, by decide, hs⟩, rfl, ⟨1, rfl⟩, rfl, rfl, rfl⟩
  have hmem := (h st (.of_exec hinit hst)).1 0 (by rw [hyield]; exact List.mem_singleton_self 0)
  rw [hsub] at hmem
  cases hmem

end Catkit2.L5.CameraProxy
