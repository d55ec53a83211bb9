import Catkit2.L2Stream.GetFrame
import Catkit2.L2Stream.Layout
import Mathlib.Data.List.Range

/-!
# Reading a stream in order (catkit_core/DataStream.cpp)

A handle remembers the id after the last frame that `GetNextFrame` returned.
The next call aims at that id, or at the newest frame or the oldest one if the
handle's mode says so and it is further on.

* `Position`: one handle, every read of the call a step of its own, and
  writers that do anything that does not take `m_LastId` back.
  `frames_in_order` is about the calls made so far, whatever became of them.
* `Readers`: one writer and any number of handles, each call one step.
  `selects_available_iff` says when the id that is selected was not discarded;
  an empty window is not the same as a stream without frames.
-/
namespace Catkit2.L2

open Catkit2.L1

/-! ## Handles -/

/-- mirrors catkit_core/DataStream.h:59-63 -/
inductive BufferHandlingMode where
  | newestOnly
  | oldestFirstOverwrite
  deriving DecidableEq, Repr

/-- mirrors catkit_core/DataStream.h:122-123 -/
structure Handle where
  nextFrameIdToRead : Nat
  bufferHandlingMode : BufferHandlingMode

namespace Handle

/-- mirrors catkit_core/DataStream.cpp:69-82 -/
def created : Handle := ⟨0, .newestOnly⟩

/-- Frames that are there already are not read.
mirrors catkit_core/DataStream.cpp:130-145 -/
def opened (s : DataStream) : Handle := ⟨s.lastId, .newestOnly⟩

/-- mirrors catkit_core/DataStream.cpp:352-375 -/
def select (h : Handle) (newestFrameId oldestFrameId : Nat) : Nat :=
  match h.bufferHandlingMode with
  | .newestOnly => if newestFrameId > h.nextFrameIdToRead then newestFrameId else h.nextFrameIdToRead
  | .oldestFirstOverwrite =>
    if h.nextFrameIdToRead < oldestFrameId then oldestFrameId else h.nextFrameIdToRead

theorem next_le_select (h : Handle) (newest oldest : Nat) :
    h.nextFrameIdToRead ≤ h.select newest oldest := by
  unfold select
  split <;> split <;> omega

/-- Nothing but discarded frames is skipped in this mode. -/
theorem lt_of_lt_select {h : Handle} (hm : h.bufferHandlingMode = .oldestFirstOverwrite)
    {newest oldest i : Nat} (hi : h.nextFrameIdToRead ≤ i) (hlt : i < h.select newest oldest) : i < oldest := by
  unfold select at hlt
  rw [hm] at hlt
  dsimp only at hlt
  split at hlt <;> omega

end Handle

/-! ## One handle -/

/-- Where a call of `GetNextFrame` is.
mirrors catkit_core/DataStream.cpp:350-381,411-423 -/
inductive NextAt where
  | idle
  /-- In `GetNewestAvailableFrameId`, which reads `m_LastId` twice. -/
  | newest (wait : Bool)
  | newestAgain (wait : Bool)
  | oldest (newestFrameId : Nat) (wait : Bool)
  | fetching (frameId oldestFrameId : Nat) (f : Fetching)

/-- A call that ended: the position before and after it, the `m_FirstId` it
read, and the frame unless it threw. -/
structure NextCall where
  mode : BufferHandlingMode
  before : Nat
  oldest : Nat
  frame : Option DataFrame
  after : Nat

structure Position where
  stream : DataStream
  handle : Handle
  place : NextAt
  calls : List NextCall

inductive PositionStep where
  /-- Whatever the writers do to the stream. -/
  | writers (s : DataStream)
  | setBufferHandlingMode (mode : BufferHandlingMode)
  | getNextFrame (waitTimeInMs : Int)
  | read
  | giveUp (msg : String)

namespace Position

/-- The call ends, with a frame or with an exception. -/
def finish (st : Position) (oldestFrameId : Nat) (frame : Option DataFrame) (next : Nat) : Position :=
  { st with
    handle := { st.handle with nextFrameIdToRead := next }
    place := .idle
    calls := st.calls ++ [⟨st.handle.bufferHandlingMode, st.handle.nextFrameIdToRead, oldestFrameId,
      frame, next⟩] }

/-- `GetFrame` has come to `f`. -/
def goOn (st : Position) (frameId oldestFrameId : Nat) : Fetching → Position
  | .returned frame => st.finish oldestFrameId (some frame) (frameId + 1)
  | .threw _ => st.finish oldestFrameId none st.handle.nextFrameIdToRead
  | f => { st with place := .fetching frameId oldestFrameId f }

/-- The next access of the call; `frameId` is selected when all three ids are known. -/
def read (st : Position) : Option Position :=
  match st.place with
  | .idle => none
  | .newest wait =>
    some { st with place := if st.stream.lastId = 0 then .oldest 0 wait else .newestAgain wait }
  | .newestAgain wait => some { st with place := .oldest (st.stream.lastId - 1) wait }
  | .oldest newestFrameId wait =>
    let frameId := st.handle.select newestFrameId st.stream.firstId
    some { st with place := .fetching frameId st.stream.firstId (.first frameId wait) }
  | .fetching frameId oldestFrameId f => (f.read st.stream).map (st.goOn frameId oldestFrameId)

def step (st : Position) : PositionStep → Option Position
  | .writers s => if st.stream.lastId ≤ s.lastId then some { st with stream := s } else none
  | .setBufferHandlingMode mode =>
    match st.place with
    | .idle => some { st with handle := { st.handle with bufferHandlingMode := mode } }
    | _ => none
  | .getNextFrame waitTimeInMs =>
    match st.place with
    | .idle => some { st with place := .newest (waitTimeInMs > 0) }
    | _ => none
  | .read => st.read
  | .giveUp msg =>
    match st.place with
    | .fetching frameId oldestFrameId (.waiting _) => some (st.goOn frameId oldestFrameId (.threw msg))
    | _ => none

/-- A handle that was just created or opened. -/
def init (st : Position) : Prop :=
  (st.handle = .created ∨ st.handle = .opened st.stream) ∧ st.place = .idle ∧ st.calls = []

end Position

def positions : LTS Position PositionStep := .ofFn Position.init Position.step

/-- The ids that the calls returned. -/
def ids (calls : List NextCall) : List Nat := calls.filterMap fun c => c.frame.map DataFrame.id

/-- The calls take the position from `p` to `q`, one after the other. -/
def Lead (p : Nat) : List NextCall → Nat → Prop
  | [], q => p = q
  | c :: calls, q => c.before = p ∧ Lead c.after calls q

/-- What a single call does to the position. -/
structure NextCall.Sound (c : NextCall) : Prop where
  threw : c.frame = none → c.after = c.before
  returned : ∀ f, c.frame = some f → c.before ≤ f.id ∧ c.after = f.id + 1
  skipped : ∀ f, c.frame = some f → c.mode = .oldestFirstOverwrite →
    ∀ i, c.before ≤ i → i < f.id → i < c.oldest

/-- The id that `GetFrame` was called with, unless it threw. -/
def Fetching.target : Fetching → Option Nat
  | .first id _ | .last id _ | .willBe id _ | .waiting id | .pointer id | .stamp id _
  | .shape id _ _ => some id
  | .returned frame => some frame.id
  | .threw _ => none

/-- `GetFrame` was called with `frameId`, which the handle selected. -/
def NextAt.Selected (h : Handle) : NextAt → Prop
  | .fetching frameId oldestFrameId f =>
    f.target = some frameId ∧ ∃ newest, frameId = h.select newest oldestFrameId
  | _ => True

namespace Position

/-- The calls so far lead to the position of the handle. -/
structure InOrder (st : Position) : Prop where
  lead : ∃ p, Lead p st.calls st.handle.nextFrameIdToRead
  sound : ∀ c ∈ st.calls, c.Sound
  selected : st.place.Selected st.handle

variable {st st' : Position}

/-! ## Steps -/

theorem read_target {s : DataStream} {f f' : Fetching} {id : Nat} (h : f.read s = some f')
    (hid : f.target = some id) : f'.target = some id ∨ ∃ msg, f' = .threw msg := by
  cases f with
  | first _ wait =>
    cases hid
    simp only [Fetching.read, Option.some.injEq] at h
    subst h
    split
    · exact .inl rfl
    · exact .inl rfl
  | last _ wait =>
    cases hid
    simp only [Fetching.read, Option.some.injEq] at h
    subst h
    split
    · exact .inl rfl
    · exact .inl rfl
  | willBe _ wait =>
    cases hid
    simp only [Fetching.read, Option.some.injEq] at h
    subst h
    split
    · exact .inr ⟨_, rfl⟩
    · split
      · exact .inr ⟨_, rfl⟩
      · exact .inl rfl
  | waiting _ =>
    cases hid
    simp only [Fetching.read, Option.some.injEq] at h
    subst h
    split
    · exact .inl rfl
    · exact .inl rfl
  | pointer _ => cases h; exact .inl hid
  | stamp _ _ => cases h; exact .inl hid
  | shape _ _ _ => cases h; exact .inl hid
  | returned _ => cases h
  | threw _ => cases h

theorem Lead.snoc {p q : Nat} {calls : List NextCall} (h : Lead p calls q) {c : NextCall}
    (hc : c.before = q) : Lead p (calls ++ [c]) c.after := by
  induction calls generalizing p with
  | nil =>
    cases h
    exact ⟨hc, rfl⟩
  | cons c' calls ih => exact ⟨h.1, ih h.2⟩

/-- A call that returns the frame it selected. -/
theorem InOrder.returned (h : InOrder st) {frame : DataFrame} {frameId oldest newest : Nat}
    (hid : frame.id = frameId) (hsel : frameId = st.handle.select newest oldest) :
    InOrder (st.finish oldest (some frame) (frameId + 1)) := by
  obtain ⟨p, hp⟩ := h.lead
  refine ⟨⟨p, Lead.snoc hp rfl⟩, fun c hc => ?_, trivial⟩
  rcases List.mem_append.mp hc with hc | hc
  · exact h.sound c hc
  · rw [List.mem_singleton.mp hc]
    refine ⟨fun hn => (by cases hn), fun f hf => ?_, fun f hf hm i hi hlt => ?_⟩
    · cases hf
      rw [hid, hsel]
      exact ⟨st.handle.next_le_select newest oldest, rfl⟩
    · cases hf
      rw [hid, hsel] at hlt
      exact Handle.lt_of_lt_select hm hi hlt

/-- A call that throws. -/
theorem InOrder.threw (h : InOrder st) (oldest : Nat) :
    InOrder (st.finish oldest none st.handle.nextFrameIdToRead) := by
  obtain ⟨p, hp⟩ := h.lead
  refine ⟨⟨p, Lead.snoc hp rfl⟩, fun c hc => ?_, trivial⟩
  rcases List.mem_append.mp hc with hc | hc
  · exact h.sound c hc
  · rw [List.mem_singleton.mp hc]
    exact ⟨fun _ => rfl, fun f hf => (by cases hf), fun f hf => by cases hf⟩

theorem InOrder.goOn (h : InOrder st) {frameId oldest newest : Nat} {f : Fetching}
    (hf : f.target = some frameId ∨ ∃ msg, f = .threw msg)
    (hsel : frameId = st.handle.select newest oldest) : InOrder (st.goOn frameId oldest f) := by
  cases f with
  | returned frame =>
    rcases hf with hf | ⟨msg, hf⟩
    · exact h.returned (Option.some.inj hf) hsel
    · cases hf
  | threw msg => exact h.threw oldest
  | _ =>
    rcases hf with hf | ⟨msg, hf⟩
    · exact ⟨h.lead, h.sound, hf, newest, hsel⟩
    · cases hf

theorem InOrder.read (h : InOrder st) (hs : st.read = some st') : InOrder st' := by
  unfold Position.read at hs
  have hselected := h.selected
  split at hs
  · cases hs
  · cases hs
    refine ⟨h.lead, h.sound, ?_⟩
    show NextAt.Selected _ (if st.stream.lastId = 0 then _ else _)
    split <;> exact trivial
  · cases hs
    exact ⟨h.lead, h.sound, trivial⟩
  · rename_i newest wait hat
    cases hs
    exact ⟨h.lead, h.sound, rfl, newest, rfl⟩
  · rename_i frameId oldest f hat
    obtain ⟨f', hr, rfl⟩ := Option.map_eq_some_iff.mp hs
    rw [hat] at hselected
    obtain ⟨htarget, newest, hsel⟩ := hselected
    exact h.goOn (read_target hr htarget) hsel

/-- **Every step**, of the call or of the writers. -/
theorem inOrder_step {l : PositionStep} (h : InOrder st) (hs : st.step l = some st') : InOrder st' := by
  have hselected := h.selected
  cases l with
  | writers s =>
    simp only [step] at hs
    split at hs
    · cases hs
      exact ⟨h.lead, h.sound, h.selected⟩
    · cases hs
  | setBufferHandlingMode mode =>
    simp only [step] at hs
    split at hs
    · rename_i hat
      cases hs
      refine ⟨h.lead, h.sound, ?_⟩
      show st.place.Selected _
      rw [hat]
      exact trivial
    · cases hs
  | getNextFrame wait =>
    simp only [step] at hs
    split at hs
    · cases hs
      exact ⟨h.lead, h.sound, trivial⟩
    · cases hs
  | read => exact h.read hs
  | giveUp msg =>
    simp only [step] at hs
    split at hs
    · cases hs
      exact h.threw _
    · cases hs

theorem InOrder.of_init (h : st.init) : InOrder st := by
  obtain ⟨-, hat, hcalls⟩ := h
  refine ⟨⟨st.handle.nextFrameIdToRead, ?_⟩, ?_, ?_⟩
  · rw [hcalls]
    rfl
  · rw [hcalls]
    exact fun c hc => by cases hc
  · rw [hat]
    exact trivial

/-- No call of a writer takes `m_LastId` back. -/
theorem lastId_le_step (s : DataStream) (c : StreamCall) : s.lastId ≤ (s.step c).lastId := by
  have hset : ∀ (type : DataType) (dims : List UInt64) (n : Nat),
      s.lastId ≤ (s.orSame (s.updateParameters type dims n)).lastId := by
    intro type dims n
    rcases orSame_cases s (s.updateParameters type dims n) with he | he
    · rw [he]
    · obtain ⟨-, -, -, hs⟩ := DataStream.updateParameters_ok he
      rw [hs]
  cases c with
  | create l => exact Nat.le_refl _
  | requestNewFrame => exact Nat.le_refl _
  | submitFrame id ts => exact FrameReader.lastId_submitFrame s id ts
  | call c =>
    cases c with
    | submitData data ts => exact FrameReader.lastId_submitFrame _ _ ts
    | updateParameters l => exact hset _ _ _
    | setDataType type => exact hset _ _ _
    | setDimensions dims => exact hset _ _ _
    | setNumFramesInBuffer n => exact hset _ _ _

/-- Whatever a writer calls is a step of the writers. -/
theorem step_writers (st : Position) (c : StreamCall) :
    st.step (.writers (st.stream.step c)) = some { st with stream := st.stream.step c } :=
  if_pos (lastId_le_step st.stream c)

end Position

/-! ## The calls of a handle -/

/-- What is returned lies from where the calls started up to where they lead. -/
theorem Lead.ids_range {calls : List NextCall} {p q : Nat} (h : Lead p calls q)
    (hs : ∀ c ∈ calls, c.Sound) :
    (p ≤ q ∧ ∀ i ∈ ids calls, p ≤ i ∧ i < q) ∧ (ids calls).Pairwise (· < ·) := by
  induction calls generalizing p with
  | nil =>
    cases h
    exact ⟨⟨Nat.le_refl _, fun i hi => by cases hi⟩, List.Pairwise.nil⟩
  | cons c calls ih =>
    obtain ⟨rfl, hlead⟩ := h
    obtain ⟨⟨hle, hrange⟩, hsorted⟩ := ih hlead fun c' hc' => hs c' (List.mem_cons_of_mem _ hc')
    have hc := hs c List.mem_cons_self
    cases hf : c.frame with
    | none =>
      have hids : ids (c :: calls) = ids calls := by simp [ids, hf]
      rw [hids, ← hc.threw hf]
      exact ⟨⟨hle, hrange⟩, hsorted⟩
    | some f =>
      have hids : ids (c :: calls) = f.id :: ids calls := by simp [ids, hf]
      obtain ⟨hbefore, hafter⟩ := hc.returned f hf
      rw [hids]
      refine ⟨⟨by omega, fun i hi => ?_⟩, List.pairwise_cons.mpr ⟨fun i hi => ?_, hsorted⟩⟩
      · rcases List.mem_cons.mp hi with rfl | hi
        · omega
        · have := hrange i hi
          omega
      · have := hrange i hi
        omega

/-- A call that selects the oldest frame, and finds its position not discarded. -/
def NextCall.InWindow (c : NextCall) : Prop := c.mode = .oldestFirstOverwrite ∧ c.oldest ≤ c.before

theorem NextCall.Sound.id_eq {c : NextCall} (h : c.Sound) (hw : c.InWindow) {f : DataFrame}
    (hf : c.frame = some f) : f.id = c.before := by
  have hle := (h.returned f hf).1
  by_contra hne
  have hlt := h.skipped f hf hw.1 c.before (Nat.le_refl _) (by omega)
  exact Nat.lt_irrefl _ (hlt.trans_le hw.2)

/-- Such calls return one id after the other. -/
theorem Lead.ids_eq_range' {calls : List NextCall} {p q : Nat} (h : Lead p calls q)
    (hs : ∀ c ∈ calls, c.Sound) (hw : ∀ c ∈ calls, c.InWindow) :
    ids calls = List.range' p (ids calls).length := by
  induction calls generalizing p with
  | nil => rfl
  | cons c calls ih =>
    obtain ⟨rfl, hlead⟩ := h
    have hc := hs c List.mem_cons_self
    have ih' := ih hlead (fun c' hc' => hs c' (List.mem_cons_of_mem _ hc'))
      fun c' hc' => hw c' (List.mem_cons_of_mem _ hc')
    cases hf : c.frame with
    | none =>
      have hids : ids (c :: calls) = ids calls := by simp [ids, hf]
      rw [hids, ← hc.threw hf]
      exact ih'
    | some f =>
      have hids : ids (c :: calls) = f.id :: ids calls := by simp [ids, hf]
      have hid := hc.id_eq (hw c List.mem_cons_self) hf
      rw [(hc.returned f hf).2] at ih'
      rw [hids, List.length_cons, List.range'_succ, hid]
      rw [hid] at ih'
      rw [← ih']

theorem Lead.split {calls calls' : List NextCall} {p q : Nat} (h : Lead p (calls ++ calls') q) :
    ∃ r, Lead p calls r ∧ Lead r calls' q := by
  induction calls generalizing p with
  | nil => exact ⟨p, rfl, h⟩
  | cons c calls ih =>
    obtain ⟨r, h1, h2⟩ := ih h.2
    exact ⟨r, ⟨h.1, h1⟩, h2⟩

/-- **Frames in order.** Whatever the writers did, whatever became of the calls
and whatever mode they were made in: each began where the one before it left
the position, the ids that were returned increase, a call that threw left the
position alone, and a call in `OLDEST_FIRST_OVERWRITE` mode skipped only what
was below the `m_FirstId` it read. Successive calls in that mode that did not
find their position below it returned one id after the other. -/
theorem frames_in_order (st : Position) (h : positions.Reachable st) :
    (∃ p, Lead p st.calls st.handle.nextFrameIdToRead) ∧
      (ids st.calls).Pairwise (· < ·) ∧
      (∀ c ∈ st.calls, c.frame = none → c.after = c.before) ∧
      (∀ c ∈ st.calls, ∀ f, c.frame = some f → c.mode = .oldestFirstOverwrite →
        ∀ i, c.before ≤ i → i < f.id → i < c.oldest) ∧
      ∀ pre calls post, st.calls = pre ++ calls ++ post → (∀ c ∈ calls, c.InWindow) →
        ∃ p, ids calls = List.range' p (ids calls).length := by
  have hind : positions.Inductive Position.InOrder :=
    ⟨fun _ hi => .of_init hi, fun _ _ _ hi hs => Position.inOrder_step hi hs⟩
  have hord := hind.reachable st h
  obtain ⟨p, hp⟩ := hord.lead
  refine ⟨⟨p, hp⟩, (hp.ids_range hord.sound).2, fun c hc => (hord.sound c hc).threw,
    fun c hc => (hord.sound c hc).skipped, fun pre calls post heq hw => ?_⟩
  rw [heq] at hp
  obtain ⟨r, hp', -⟩ := Lead.split hp
  obtain ⟨q, -, hq⟩ := Lead.split hp'
  have hsound : ∀ c ∈ calls, c.Sound := fun c hc =>
    hord.sound c (heq ▸ List.mem_append_left _ (List.mem_append_right _ hc))
  exact ⟨q, hq.ids_eq_range' hsound hw⟩

/-- A handle that is there before the first frame, one frame, and two calls: the
second one times out. -/
theorem frames_in_order_first : ∃ st : Position, ids st.calls = [0] ∧ st.calls.length = 2 ∧
    (ids st.calls).Pairwise (· < ·) ∧ ∀ c ∈ st.calls, c.frame = none → c.after = c.before := by
  obtain ⟨s, hs, st, hst, hids, hlen⟩ : ∃ s, DataStream.create .uint8 [1] 2 = .ok s ∧ ∃ st,
      LTS.exec Position.step ⟨s, .created, .idle, []⟩ ([.setBufferHandlingMode .oldestFirstOverwrite,
        .writers (s.submitData (fun _ => 7) 10), .getNextFrame 5] ++ List.replicate 8 .read ++
        [.getNextFrame 5] ++ List.replicate 6 .read ++ [.giveUp "Waiting time has expired."]) = some st ∧
        ids st.calls = [0] ∧ st.calls.length = 2 := ⟨_, rfl, _, rfl, rfl, rfl⟩
  obtain ⟨-, hsorted, hthrew, -⟩ := frames_in_order st (.of_exec ⟨.inl rfl, rfl, rfl⟩ hst)
  exact ⟨st, hids, hlen, hsorted, hthrew⟩

/-! ## One writer and any number of handles -/

/-- A call that is made in one step.
mirrors catkit_core/DataStream.cpp:350-381 -/
def DataStream.getNextFrame (s : DataStream) (h : Handle) (waitTimeInMs : Int) : DataStream.Fetch × Handle :=
  let frameId := h.select s.getNewestAvailableFrameId s.firstId
  match s.getFrame frameId waitTimeInMs with
  | .frame frame => (.frame frame, { h with nextFrameIdToRead := frameId + 1 })
  | r => (r, h)

/-- The frame that the handle selects was not discarded. -/
def SelectsAvailable (s : DataStream) (h : Handle) : Prop :=
  s.firstId ≤ h.select s.getNewestAvailableFrameId s.firstId

/-- The mode starts from the oldest frame, or there is a newest one, or the
position is beyond the frames that were discarded. -/
def Served (s : DataStream) (h : Handle) : Prop :=
  h.bufferHandlingMode = .oldestFirstOverwrite ∨ s.firstId < s.lastId ∨ s.firstId ≤ h.nextFrameIdToRead

/-- With each handle the frame it is waiting for. -/
structure Readers where
  stream : DataStream
  handles : List (Handle × Option Nat)

inductive ReadersStep where
  | writer (c : Call)
  | openStream
  | setBufferHandlingMode (i : Nat) (mode : BufferHandlingMode)
  | getNextFrame (i : Nat) (waitTimeInMs : Int)
  /-- The frame that the handle waits for is there. -/
  | wake (i : Nat)
  | giveUp (i : Nat)

/-- A layout with at least one frame, if the call asks for one. -/
def Call.HasFrames : Call → Prop
  | .updateParameters l => 1 ≤ l.numFramesInBuffer
  | .setNumFramesInBuffer n => 1 ≤ n
  | _ => True

instance (c : Call) : Decidable c.HasFrames := by unfold Call.HasFrames; split <;> exact inferInstance

namespace Readers

def step (st : Readers) : ReadersStep → Option Readers
  | .writer c => if c.HasFrames then some { st with stream := st.stream.exec c } else none
  | .openStream => some { st with handles := st.handles ++ [(.opened st.stream, none)] }
  | .setBufferHandlingMode i mode =>
    match st.handles[i]? with
    | some (h, none) =>
      some { st with handles := st.handles.set i ({ h with bufferHandlingMode := mode }, none) }
    | _ => none
  | .getNextFrame i waitTimeInMs =>
    match st.handles[i]? with
    | some (h, none) =>
      match st.stream.getNextFrame h waitTimeInMs with
      | (.wait, h') =>
        some { st with
          handles := st.handles.set i
            (h', some (h.select st.stream.getNewestAvailableFrameId st.stream.firstId)) }
      | (_, h') => some { st with handles := st.handles.set i (h', none) }
    | _ => none
  | .wake i =>
    match st.handles[i]? with
    | some (h, some frameId) =>
      if st.stream.lastId > frameId then
        some { st with handles := st.handles.set i ({ h with nextFrameIdToRead := frameId + 1 }, none) }
      else none
    | _ => none
  | .giveUp i =>
    match st.handles[i]? with
    | some (h, some _) => some { st with handles := st.handles.set i (h, none) }
    | _ => none

/-- A stream just created, and the handle that created it. -/
def init (st : Readers) : Prop := Created st.stream ∧ st.handles = [(.created, none)]

end Readers

def readers : LTS Readers ReadersStep := .ofFn Readers.init Readers.step

/-- The ids of a stream that one writer fills, a frame at a time. -/
structure OneWriter (s : DataStream) : Prop where
  pos : 1 ≤ s.numFramesInBuffer
  first_le_last : s.firstId ≤ s.lastId
  last_eq_next : s.lastId = s.nextRequestId

theorem OneWriter.of_created {s : DataStream} (h : Created s) : OneWriter s := by
  obtain ⟨type, dimensions, n, hn, hc⟩ := h
  obtain ⟨h1, h2, h3, h4⟩ := create_counters hc
  exact ⟨by omega, by omega, by omega⟩

theorem OneWriter.relayout {s : DataStream} (h : OneWriter s) {type : DataType} {dims : List UInt64}
    {n : Nat} (hn : 1 ≤ n) : OneWriter (s.orSame (s.updateParameters type dims n)) := by
  rcases orSame_cases s (s.updateParameters type dims n) with he | he
  · rw [he]
    exact h
  · obtain ⟨-, -, -, hs⟩ := DataStream.updateParameters_ok he
    rw [hs]
    exact ⟨hn, Nat.le_refl _, h.last_eq_next⟩

theorem OneWriter.submitData {s : DataStream} (h : OneWriter s) (data : Mem) (ts : UInt64) :
    OneWriter (s.submitData data ts) := by
  obtain ⟨hpos, hfirst, hlast⟩ := h
  have hl : (s.submitData data ts).lastId = s.lastId + 1 := by
    rw [hlast]
    exact if_neg (by show ¬ s.lastId ≥ s.nextRequestId + 1; omega)
  have hf : (s.submitData data ts).firstId ≤ s.lastId := by
    show (if s.lastId - s.firstId = s.numFramesInBuffer then s.firstId + 1 else s.firstId) ≤ s.lastId
    split <;> omega
  have hnext : (s.submitData data ts).nextRequestId = s.nextRequestId + 1 := rfl
  exact ⟨hpos, by omega, by omega⟩

theorem OneWriter.exec {s : DataStream} (h : OneWriter s) {c : Call} (hc : c.HasFrames) :
    OneWriter (s.exec c) := by
  cases c with
  | submitData data ts => exact h.submitData data ts
  | updateParameters l => exact h.relayout hc
  | setDataType type => exact h.relayout h.pos
  | setDimensions dims => exact h.relayout h.pos
  | setNumFramesInBuffer n => exact h.relayout hc

/-- No step of a handle changes the stream. -/
theorem Readers.step_stream {st st' : Readers} {l : ReadersStep} (h : st.step l = some st') :
    st'.stream = st.stream ∨ ∃ c : Call, c.HasFrames ∧ st'.stream = st.stream.exec c := by
  cases l with
  | writer c =>
    simp only [step] at h
    split at h
    · rename_i hc
      cases h
      exact .inr ⟨c, hc, rfl⟩
    · cases h
  | openStream =>
    cases h
    exact .inl rfl
  | setBufferHandlingMode i mode =>
    simp only [step] at h
    split at h <;> cases h
    exact .inl rfl
  | getNextFrame i wait =>
    simp only [step] at h
    split at h
    · split at h <;> cases h <;> exact .inl rfl
    · cases h
  | wake i =>
    simp only [step] at h
    split at h
    · split at h <;> cases h
      exact .inl rfl
    · cases h
  | giveUp i =>
    simp only [step] at h
    split at h <;> cases h
    exact .inl rfl

theorem OneWriter.inductive : readers.Inductive fun st => OneWriter st.stream := by
  refine ⟨fun st h => .of_created h.1, fun st l st' h hst => ?_⟩
  rcases Readers.step_stream hst with he | ⟨c, hc, he⟩
  · rw [he]
    exact h
  · rw [he]
    exact h.exec hc

theorem OneWriter.selectsAvailable_iff {s : DataStream} (hs : OneWriter s) (h : Handle) :
    SelectsAvailable s h ↔ Served s h := by
  have hle := hs.first_le_last
  unfold SelectsAvailable Served Handle.select DataStream.getNewestAvailableFrameId
  cases h.bufferHandlingMode with
  | newestOnly =>
    simp only [reduceCtorEq, false_or]
    split <;> split <;> omega
  | oldestFirstOverwrite =>
    simp only [true_or, iff_true]
    split <;> omega

/-- `GetFrame` gives a frame up only if it was discarded. -/
theorem getFrame_never_iff (s : DataStream) (id : Nat) (wait : Int) :
    s.getFrame id wait = .error "Frame will never be available anymore." ↔ id < s.firstId := by
  unfold DataStream.getFrame
  split
  · rename_i hav
    rw [DataStream.isFrameAvailable_iff] at hav
    exact ⟨fun h => (by cases h), fun h => by omega⟩
  · have hwill : s.willFrameBeAvailable id = true ↔ s.firstId ≤ id := by
      simp [DataStream.willFrameBeAvailable]
    split
    · rename_i hnot
      rw [hwill] at hnot
      exact ⟨fun _ => by omega, fun _ => rfl⟩
    · rename_i hyes
      rw [Decidable.not_not, hwill] at hyes
      refine ⟨fun h => ?_, fun h => by omega⟩
      split at h
      · have hne : "Frame is not available yet." ≠ "Frame will never be available anymore." := by decide
        exact absurd (DataStream.Fetch.error.inj h) hne
      · cases h

theorem getNextFrame_never_iff (s : DataStream) (h : Handle) (wait : Int) :
    (s.getNextFrame h wait).1 = .error "Frame will never be available anymore." ↔ ¬ SelectsAvailable s h := by
  have hget := getFrame_never_iff s (h.select s.getNewestAvailableFrameId s.firstId) wait
  unfold SelectsAvailable
  rw [Nat.not_le, ← hget]
  unfold DataStream.getNextFrame
  dsimp only
  split
  · rename_i frame hframe
    rw [hframe]
  · rfl

/-- **What is selected.** In every state that one writer and any number of handles
reach, the id that a handle selects, wherever it stands, was not discarded, and
`GetNextFrame` does not throw that it was, exactly when the mode is
`OLDEST_FIRST_OVERWRITE`, or a frame is available, or the position is not below
`m_FirstId`. -/
theorem selects_available_iff (st : Readers) (hst : readers.Reachable st) (h : Handle) :
    (SelectsAvailable st.stream h ↔ Served st.stream h) ∧
      ∀ wait, (st.stream.getNextFrame h wait).1 ≠ .error "Frame will never be available anymore." ↔
        Served st.stream h := by
  have hone := OneWriter.inductive.reachable st hst
  have hiff := hone.selectsAvailable_iff h
  refine ⟨hiff, fun wait => ?_⟩
  rw [ne_eq, getNextFrame_never_iff, not_not, hiff]

/-- A frame, and a handle that reads it. -/
theorem selects_available_iff_first : ∃ st : Readers, st.stream.lastId = 1 ∧
    ∃ e ∈ st.handles, e.1.nextFrameIdToRead = 1 ∧ SelectsAvailable st.stream e.1 := by
  obtain ⟨s, hs, st, hst, hlast, e, he, hnext, hserved⟩ : ∃ s, DataStream.create .uint8 [1] 2 = .ok s ∧ ∃ st,
      LTS.exec Readers.step ⟨s, [(.created, none)]⟩
        [.writer (.submitData (fun _ => 7) 10), .getNextFrame 0 5] = some st ∧ st.stream.lastId = 1 ∧
        ∃ e ∈ st.handles, e.1.nextFrameIdToRead = 1 ∧ Served st.stream e.1 :=
    ⟨_, rfl, _, rfl, rfl, _, List.mem_singleton.mpr rfl, rfl, .inr (.inl (by decide))⟩
  have hreach : readers.Reachable st := .of_exec ⟨⟨.uint8, [1], 2, by decide, hs⟩, rfl⟩ hst
  exact ⟨st, hlast, e, he, hnext, (selects_available_iff st hreach e.1).1.mpr hserved⟩

/-- **The counterexample.** One frame, then a new layout: the newest frame is the
one that was discarded. -/
theorem newest_discarded :
    ¬ ∀ st, readers.Reachable st → ∀ e ∈ st.handles, SelectsAvailable st.stream e.1 := by
  intro h
  obtain ⟨s, hs, st, hst, e, he, hnot⟩ : ∃ s, DataStream.create .uint8 [1] 2 = .ok s ∧ ∃ st,
      LTS.exec Readers.step ⟨s, [(.created, none)]⟩ [.writer (.submitData (fun _ => 7) 10),
        .writer (.updateParameters ⟨.uint8, [1], 2⟩)] = some st ∧
        ∃ e ∈ st.handles, ¬ SelectsAvailable st.stream e.1 :=
    ⟨_, rfl, _, rfl, _, List.mem_singleton.mpr rfl, by unfold SelectsAvailable; decide⟩
  exact hnot (h st (.of_exec ⟨⟨.uint8, [1], 2, by decide, hs⟩, rfl⟩ hst) e he)

end Catkit2.L2
