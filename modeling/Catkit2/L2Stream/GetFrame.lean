import Catkit2.L2Stream.Writers

/-!
# GetFrame beside a writer (catkit_core/DataStream.cpp)

`GetFrame` asks whether the frame is available, waits for it if it is still to
come, and then builds a view of its slot. It reads the header one field at a
time and without a lock; the wait is for `m_LastId` alone. A writer may retire
the frame between any two of these reads.

A step of the reader is one read. `Synchronization::Wait` shows up as the test
of its condition, which may be made any number of times, and as the exceptions
it throws (`giveUp`). The mutex is left out: it orders `SubmitFrame` and the
test, and neither reads `m_FirstId`.

* `sound_step`: what is held stays available as long as no request retires it.
* `available_of_kept`: in such runs every frame returned was available at every
  read it was made from.
-/
namespace Catkit2.L2

open Catkit2.L1

/-! ## The reader -/

/-- Where a call of `GetFrame` is; `wait` is `wait_time_in_ms > 0`.
mirrors catkit_core/DataStream.cpp:319-348,401-409 -/
inductive Fetching where
  /-- In `IsFrameAvailable`, before `m_FirstId` and before `m_LastId`. -/
  | first (id : Nat) (wait : Bool)
  | last (id : Nat) (wait : Bool)
  | willBe (id : Nat) (wait : Bool)
  | waiting (id : Nat)
  /-- The reads that make up the frame. -/
  | pointer (id : Nat)
  | stamp (id : Nat) (data : Nat)
  | shape (id : Nat) (data : Nat) (timeStamp : UInt64)
  | returned (frame : DataFrame)
  | threw (msg : String)

namespace Fetching

/-- The frame that the call will return unless it throws. -/
def holds : Fetching → Option Nat
  | .last id _ | .waiting id | .pointer id | .stamp id _ | .shape id _ _ => some id
  | _ => none

/-- The frame whose slot the next access reads. -/
def reads : Fetching → Option Nat
  | .pointer id | .stamp id _ | .shape id _ _ => some id
  | _ => none

/-- The next access of the call. A wait whose condition is false goes on. -/
def read (s : DataStream) : Fetching → Option Fetching
  | .first id wait => some (if id ≥ s.firstId then .last id wait else .willBe id wait)
  | .last id wait => some (if id < s.lastId then .pointer id else .willBe id wait)
  | .willBe id wait =>
    some (if ¬ id ≥ s.firstId then .threw "Frame will never be available anymore."
      else if ¬ wait then .threw "Frame is not available yet."
      else .waiting id)
  | .waiting id => some (if s.lastId > id then .pointer id else .waiting id)
  | .pointer id => some (.stamp id (s.offset id))
  | .stamp id data => some (.shape id data (s.frameMetadata (id % s.numFramesInBuffer)))
  | .shape id data timeStamp => some (.returned
      { dataType := s.dataType, numDimensions := s.numDimensions, dimensions := s.dimensions
        data := data, id := id, timeStamp := timeStamp })
  | .returned _ | .threw _ => none

/-- No call is under way. -/
def finished : Fetching → Bool
  | .returned _ | .threw _ => true
  | _ => false

end Fetching

/-! ## A reader and a writer -/

/-- `lapsed`: the slot was read while the frame was not available. -/
structure FrameReader where
  stream : DataStream
  fetching : Option Fetching
  lapsed : Bool

inductive FetchStep where
  | writer (c : WriterCall)
  | getFrame (id : Nat) (waitTimeInMs : Int)
  | read
  /-- `Wait` throws: the time has passed, or the error check threw. -/
  | giveUp (msg : String)

namespace FrameReader

def step (st : FrameReader) : FetchStep → Option FrameReader
  | .writer c => (writerStep st.stream c).map fun s => { st with stream := s }
  | .getFrame id waitTimeInMs =>
    if (st.fetching.map Fetching.finished).getD true then
      some { st with fetching := some (.first id (waitTimeInMs > 0)), lapsed := false }
    else none
  | .read =>
    match st.fetching with
    | some f => (f.read st.stream).map fun f' =>
      { st with
        fetching := some f'
        lapsed := st.lapsed || f.reads.any fun id => !st.stream.isFrameAvailable id }
    | none => none
  | .giveUp msg =>
    match st.fetching with
    | some (.waiting _) => some { st with fetching := some (.threw msg) }
    | _ => none

def init (st : FrameReader) : Prop := Created st.stream ∧ st.fetching = none ∧ st.lapsed = false

/-- A frame was returned, and its slot was read only while it was available. -/
def Faithful (st : FrameReader) : Prop := ∀ frame, st.fetching = some (.returned frame) → st.lapsed = false

/-- The request does not retire the frame that the reader is after. -/
def Keeps (st : FrameReader) : FetchStep → Prop
  | .writer .requestNewFrame =>
    st.stream.lastId - st.stream.firstId = st.stream.numFramesInBuffer →
      st.fetching.bind Fetching.holds ≠ some st.stream.firstId
  | _ => True

instance (st : FrameReader) (l : FetchStep) : Decidable (st.Keeps l) := by
  unfold Keeps; split <;> exact inferInstance

/-! ## The invariant -/

/-- The frame that is held has not been retired, and a frame that is being read
was submitted. -/
structure Sound (st : FrameReader) : Prop where
  pos : 1 ≤ st.stream.numFramesInBuffer
  edges : st.stream.firstId ≤ st.stream.lastId
  held : ∀ id, st.fetching.bind Fetching.holds = some id → st.stream.firstId ≤ id
  submitted : ∀ id, st.fetching.bind Fetching.reads = some id → id < st.stream.lastId
  clean : st.lapsed = false

variable {st st' : FrameReader}

theorem Sound.of_init (h : st.init) : Sound st := by
  obtain ⟨hc, hf, hl⟩ := h
  have hcount := Counters.of_created hc
  refine ⟨hcount.pos, hcount.first_le_last, fun id hid => ?_, fun id hid => ?_, hl⟩
  · rw [hf] at hid
    cases hid
  · rw [hf] at hid
    cases hid

theorem lastId_submitFrame (s : DataStream) (id : Nat) (ts : UInt64) :
    s.lastId ≤ (s.submitFrame id ts).lastId := by
  unfold DataStream.submitFrame
  dsimp only
  split
  · exact Nat.le_refl _
  · omega

theorem Sound.submitFrame (h : Sound st) (id : Nat) (ts : UInt64) :
    Sound { st with stream := st.stream.submitFrame id ts } := by
  have hle := lastId_submitFrame st.stream id ts
  exact ⟨h.pos, h.edges.trans hle, h.held, fun id' hid => (h.submitted id' hid).trans_le hle, h.clean⟩

theorem Sound.requestNewFrame (h : Sound st) (hk : st.Keeps (.writer .requestNewFrame)) :
    Sound { st with stream := st.stream.requestNewFrame.2 } := by
  have hpos := h.pos
  by_cases hfull : st.stream.lastId - st.stream.firstId = st.stream.numFramesInBuffer
  · have hf : st.stream.requestNewFrame.2.firstId = st.stream.firstId + 1 := if_pos hfull
    refine ⟨h.pos, ?_, fun id hid => ?_, h.submitted, h.clean⟩
    · show st.stream.requestNewFrame.2.firstId ≤ st.stream.lastId
      omega
    · show st.stream.requestNewFrame.2.firstId ≤ id
      have hle := h.held id hid
      have hne : st.stream.firstId ≠ id := fun he => hk hfull (he ▸ hid)
      omega
  · have hf : st.stream.requestNewFrame.2.firstId = st.stream.firstId := if_neg hfull
    refine ⟨h.pos, ?_, fun id hid => ?_, h.submitted, h.clean⟩
    · show st.stream.requestNewFrame.2.firstId ≤ st.stream.lastId
      rw [hf]
      exact h.edges
    · show st.stream.requestNewFrame.2.firstId ≤ id
      rw [hf]
      exact h.held id hid

/-- What the reader holds after an access it held before, or has just found not
retired; what it reads next, it read before or has just found submitted. -/
theorem read_cases {s : DataStream} {f f' : Fetching} (h : f.read s = some f') :
    (∀ id, f'.holds = some id → f.holds = some id ∨ s.firstId ≤ id) ∧
      ∀ id, f'.reads = some id → f.reads = some id ∨ id < s.lastId := by
  cases f with
  | first id wait =>
    simp only [Fetching.read, Option.some.injEq] at h
    subst h
    split
    · rename_i hge
      exact ⟨fun id' hid => .inr (by cases hid; exact hge), fun id' hid => by cases hid⟩
    · exact ⟨fun id' hid => (by cases hid), fun id' hid => by cases hid⟩
  | last id wait =>
    simp only [Fetching.read, Option.some.injEq] at h
    subst h
    split
    · rename_i hlt
      exact ⟨fun id' hid => .inl hid, fun id' hid => .inr (by cases hid; exact hlt)⟩
    · exact ⟨fun id' hid => (by cases hid), fun id' hid => by cases hid⟩
  | willBe id wait =>
    simp only [Fetching.read, Option.some.injEq] at h
    subst h
    split
    · exact ⟨fun id' hid => (by cases hid), fun id' hid => by cases hid⟩
    · rename_i hge
      split
      · exact ⟨fun id' hid => (by cases hid), fun id' hid => by cases hid⟩
      · exact ⟨fun id' hid => .inr (by cases hid; exact not_not.mp hge), fun id' hid => by cases hid⟩
  | waiting id =>
    simp only [Fetching.read, Option.some.injEq] at h
    subst h
    split
    · rename_i hlt
      exact ⟨fun id' hid => .inl hid, fun id' hid => .inr (by cases hid; exact hlt)⟩
    · exact ⟨fun id' hid => .inl hid, fun id' hid => by cases hid⟩
  | pointer id =>
    cases h
    exact ⟨fun id' hid => .inl hid, fun id' hid => .inl hid⟩
  | stamp id data =>
    cases h
    exact ⟨fun id' hid => .inl hid, fun id' hid => .inl hid⟩
  | shape id data ts =>
    cases h
    exact ⟨fun id' hid => (by cases hid), fun id' hid => by cases hid⟩
  | returned frame => cases h
  | threw msg => cases h

theorem reads_holds {f : Fetching} {id : Nat} (h : f.reads = some id) : f.holds = some id := by
  cases f with
  | pointer _ => exact h
  | stamp _ _ => exact h
  | shape _ _ _ => exact h
  | _ => cases h

/-- What is read is available. -/
theorem Sound.available (h : Sound st) {f : Fetching} (hf : st.fetching = some f) :
    (f.reads.any fun id => !st.stream.isFrameAvailable id) = false := by
  cases hr : f.reads with
  | none => rfl
  | some id =>
    have hheld := h.held id (by rw [hf]; exact reads_holds hr)
    have hsub := h.submitted id (by rw [hf]; exact hr)
    simp only [Option.any_some, DataStream.isFrameAvailable_iff.mpr ⟨hheld, hsub⟩, Bool.not_true]

theorem Sound.read (h : Sound st) {f f' : Fetching} (hf : st.fetching = some f)
    (hr : f.read st.stream = some f') : Sound { st with
      fetching := some f'
      lapsed := st.lapsed || f.reads.any fun id => !st.stream.isFrameAvailable id } := by
  obtain ⟨hheld, hsub⟩ := read_cases hr
  refine ⟨h.pos, h.edges, fun id hid => ?_, fun id hid => ?_, ?_⟩
  · rcases hheld id hid with hold | hnew
    · exact h.held id (by rw [hf]; exact hold)
    · exact hnew
  · rcases hsub id hid with hold | hnew
    · exact h.submitted id (by rw [hf]; exact hold)
    · exact hnew
  · rw [h.available hf, h.clean]
    rfl

/-- **Every step** that does not retire the frame that is held. -/
theorem sound_step {l : FetchStep} (h : Sound st) (hk : st.Keeps l) (hs : st.step l = some st') :
    Sound st' := by
  cases l with
  | writer c =>
    cases c with
    | requestNewFrame =>
      cases hs
      exact h.requestNewFrame hk
    | submitFrame id ts =>
      simp only [step, writerStep] at hs
      split at hs
      · cases hs
        exact h.submitFrame id ts
      · cases hs
  | getFrame id wait =>
    simp only [step] at hs
    split at hs
    · cases hs
      exact ⟨h.pos, h.edges, fun id' hid => (by cases hid), fun id' hid => (by cases hid), rfl⟩
    · cases hs
  | read =>
    simp only [step] at hs
    split at hs
    · rename_i f hf
      obtain ⟨f', hr, rfl⟩ := Option.map_eq_some_iff.mp hs
      exact h.read hf hr
    · cases hs
  | giveUp msg =>
    simp only [step] at hs
    split at hs
    · cases hs
      exact ⟨h.pos, h.edges, fun id' hid => (by cases hid), fun id' hid => (by cases hid), h.clean⟩
    · cases hs

end FrameReader

def frameReaders : LTS FrameReader FetchStep := .ofFn FrameReader.init FrameReader.step

namespace FrameReader

variable {st : FrameReader} {id : Nat}

/-! ## A frame that was retired -/

/-- The reader goes on by itself and returns a frame that lapsed. -/
def WillLapse (st : FrameReader) : Prop :=
  ∃ k st', frameReaders.Run st (List.replicate k .read) st' ∧ ¬ st'.Faithful

theorem WillLapse.of_read {f f' : Fetching} (hf : st.fetching = some f) (hr : f.read st.stream = some f')
    (h : WillLapse { st with
      fetching := some f'
      lapsed := st.lapsed || f.reads.any fun id => !st.stream.isFrameAvailable id }) : WillLapse st := by
  obtain ⟨k, st', hrun, hst'⟩ := h
  refine ⟨k + 1, st', ?_, hst'⟩
  rw [List.replicate_succ]
  refine .cons ?_ hrun
  show st.step .read = _
  simp only [step, hf, hr, Option.map_some]

theorem willLapse_shape {data : Nat} {ts : UInt64} (hf : st.fetching = some (.shape id data ts))
    (hid : st.stream.isFrameAvailable id = false) : WillLapse st := by
  refine .of_read hf rfl ⟨0, _, .nil _, fun h => ?_⟩
  have hclean := h _ rfl
  simp [Fetching.reads, hid] at hclean

theorem willLapse_pointer (hf : st.fetching = some (.pointer id))
    (hid : st.stream.isFrameAvailable id = false) : WillLapse st :=
  .of_read hf rfl (.of_read rfl rfl (willLapse_shape rfl hid))

/-- Whatever is held and no longer available will be returned all the same. -/
theorem willLapse_of_retired {f : Fetching} (hf : st.fetching = some f) (hheld : f.holds = some id)
    (hid : st.stream.isFrameAvailable id = false) (hlt : id < st.stream.lastId) : WillLapse st := by
  cases f with
  | last _ wait =>
    cases hheld
    exact .of_read hf (congrArg some (if_pos hlt)) (willLapse_pointer rfl hid)
  | waiting _ =>
    cases hheld
    exact .of_read hf (congrArg some (if_pos hlt)) (willLapse_pointer rfl hid)
  | pointer _ =>
    cases hheld
    exact willLapse_pointer hf hid
  | stamp _ data =>
    cases hheld
    exact .of_read hf rfl (willLapse_shape rfl hid)
  | shape _ data ts =>
    cases hheld
    exact willLapse_shape hf hid
  | _ => cases hheld

/-- **The other way.** A request that retires the frame that is held. -/
theorem willLapse_of_not_keeps {l : FetchStep} {st' : FrameReader} (h : Sound st) (hk : ¬ st.Keeps l)
    (hs : st.step l = some st') : st'.WillLapse := by
  cases l with
  | writer c =>
    cases c with
    | submitFrame id ts => exact absurd trivial hk
    | requestNewFrame =>
      cases hs
      simp only [Keeps, not_forall, Decidable.not_not] at hk
      obtain ⟨hfull, hheld⟩ := hk
      obtain ⟨f, hf, hf'⟩ := Option.bind_eq_some_iff.mp hheld
      have hpos := h.pos
      have hnew : st.stream.requestNewFrame.2.firstId = st.stream.firstId + 1 := if_pos hfull
      refine willLapse_of_retired hf hf' ?_ ?_
      · rw [Bool.eq_false_iff]
        intro hav
        rw [DataStream.isFrameAvailable_iff] at hav
        have hle : st.stream.requestNewFrame.2.firstId ≤ st.stream.firstId := hav.1
        omega
      · show st.stream.firstId < st.stream.lastId
        omega
  | _ => exact absurd trivial hk

end FrameReader

open FrameReader

/-- **Frames that were kept.** In every run in which no request retires the
frame that the reader is after, from the first test of `GetFrame` to its last
read, every frame it returns was available at every read it was made from. A
request that retires it makes the reader return a frame that was not, unless
its wait throws. -/
theorem available_of_kept (st : FrameReader) (h : (frameReaders.restrict Keeps).Reachable st) :
    st.Faithful ∧ ∀ l st', st.step l = some st' → ¬ st.Keeps l → st'.WillLapse := by
  have hind : (frameReaders.restrict Keeps).Inductive Sound :=
    ⟨fun _ hi => .of_init hi, fun _ _ _ hi hs => sound_step hi hs.1 hs.2⟩
  have hsound := hind.reachable st h
  exact ⟨fun _ _ => hsound.clean, fun l st' hs hk => willLapse_of_not_keeps hsound hk hs⟩

/-- No call has been made. -/
def FrameReader.fresh (s : DataStream) : FrameReader := ⟨s, none, false⟩

/-- A stream of one slot, a reader that waits for frame 0 and its submission. -/
def firstFrame : List FetchStep :=
  [.getFrame 0 100, .read, .read, .read, .writer .requestNewFrame, .writer (.submitFrame 0 10)]

theorem available_of_kept_first : ∃ st : FrameReader,
    (∃ frame, st.fetching = some (.returned frame) ∧ frame.timeStamp = 10) ∧ st.lapsed = false := by
  obtain ⟨s, hs, st, hst, hret⟩ : ∃ s, DataStream.create .uint8 [1] 1 = .ok s ∧ ∃ st,
      LTS.exec (LTS.guarded Keeps FrameReader.step) (fresh s) (firstFrame ++ List.replicate 4 .read) = some st ∧
        ∃ frame, st.fetching = some (.returned frame) ∧ frame.timeStamp = 10 :=
    ⟨_, rfl, _, rfl, _, rfl, rfl⟩
  have hreach : (frameReaders.restrict Keeps).Reachable st :=
    .of_guarded ⟨⟨.uint8, [1], 1, by decide, hs⟩, rfl, rfl⟩ hst
  obtain ⟨frame, hframe, hstamp⟩ := hret
  exact ⟨st, ⟨frame, hframe, hstamp⟩, (available_of_kept st hreach).1 frame hframe⟩

/-- **The counterexample.** The writer submits two frames before the reader that
waits for the first one runs again. -/
theorem lapsed_frame_returned : ¬ ∀ st, frameReaders.Reachable st → st.Faithful := by
  intro h
  obtain ⟨s, hs, st, hst, ⟨frame, hframe⟩, hlapsed⟩ : ∃ s, DataStream.create .uint8 [1] 1 = .ok s ∧ ∃ st,
      LTS.exec FrameReader.step (fresh s) (firstFrame ++
        [.writer .requestNewFrame, .writer (.submitFrame 1 11)] ++ List.replicate 4 .read) = some st ∧
        (∃ frame, st.fetching = some (.returned frame)) ∧ st.lapsed = true :=
    ⟨_, rfl, _, rfl, ⟨_, rfl⟩, rfl⟩
  have hclean := h st (.of_exec ⟨⟨.uint8, [1], 1, by decide, hs⟩, rfl, rfl⟩ hst) frame hframe
  rw [hclean] at hlapsed
  cases hlapsed

end Catkit2.L2
