import Catkit2.Core.LTS
import Catkit2.L2Stream.LogRefinement

/-!
# Streams with several writers (catkit_core/DataStream.cpp)

Any number of writers share one stream; each call is one atomic step, in any
order. `RequestNewFrame` retires the oldest frame only when the window is
exactly full, and it looks at `m_LastId` for that while the new id comes from
`m_NextRequestId`; `SubmitFrame` moves the one high-water mark `m_LastId` past
its id, whatever became of the ids below. So neither the window nor the
publication of a frame is safe for every interleaving.

* `shared`: the requests and submissions alone. `window_exceeded` is a run
  that overfills the window; `window_of_uncrowded` shows that it takes a
  request made while a full buffer of ids is open and the window is not full.
* `writers`: the same with the handles, the bytes each writer stores and
  changes of layout. `frame_published_unsubmitted` is a run that publishes a
  frame nobody submitted; `published_of_orderly` shows that ids submitted in
  the order they were requested, uncrowded requests and layouts that leave the
  open ids where they are keep every frame its writer's.

A layout whose size wraps past 2^64 is accepted by the code with too small an
allocation. Memory has no end here, so such a run stands for one that does not
fault.
-/
namespace Catkit2.L2

open Catkit2.L1

/-! ## Requests and submissions -/

inductive WriterCall where
  | requestNewFrame
  | submitFrame (id : Nat) (timeStamp : UInt64)

/-- A stream just created, with room for at least one frame. -/
def Created (s : DataStream) : Prop :=
  ∃ type dimensions n, 1 ≤ n ∧ DataStream.create type dimensions n = .ok s

/-- An id is submitted only after it was requested. -/
def writerStep (s : DataStream) : WriterCall → Option DataStream
  | .requestNewFrame => some s.requestNewFrame.2
  | .submitFrame id timeStamp =>
    if id < s.nextRequestId then some (s.submitFrame id timeStamp) else none

def shared : LTS DataStream WriterCall := .ofFn Created writerStep

/-- What the ring promises its readers and writers: the window fits the
buffer, no two available frames share a slot, and no slot handed out for a
frame still to come is that of an available frame. -/
structure Window (s : DataStream) : Prop where
  first_le_last : s.firstId ≤ s.lastId
  fits : s.lastId - s.firstId ≤ s.numFramesInBuffer
  distinct : ∀ a b, s.isFrameAvailable a = true → s.isFrameAvailable b = true →
    a % s.numFramesInBuffer = b % s.numFramesInBuffer → a = b
  requested : ∀ id a, s.lastId ≤ id → id < s.nextRequestId → s.isFrameAvailable a = true →
    a % s.numFramesInBuffer ≠ id % s.numFramesInBuffer

/-- The window is exactly full, so that the request retires a frame, or fewer
ids than the buffer has slots lie between the oldest frame and the next id. -/
def RequestOk (s : DataStream) : Prop :=
  s.lastId - s.firstId = s.numFramesInBuffer ∨ s.nextRequestId - s.firstId < s.numFramesInBuffer

def Uncrowded (s : DataStream) : WriterCall → Prop
  | .requestNewFrame => RequestOk s
  | .submitFrame _ _ => True

/-- The three ids of a stream whose requests were all uncrowded: everything
from the oldest frame to the newest request fits the buffer. -/
structure Counters (s : DataStream) : Prop where
  pos : 1 ≤ s.numFramesInBuffer
  first_le_last : s.firstId ≤ s.lastId
  last_le_next : s.lastId ≤ s.nextRequestId
  next_le : s.nextRequestId ≤ s.firstId + s.numFramesInBuffer

/-- `Create` leaves all three ids at zero. -/
theorem create_counters {type : DataType} {dimensions : List UInt64} {n : Nat} {s : DataStream}
    (h : DataStream.create type dimensions n = .ok s) :
    s.firstId = 0 ∧ s.lastId = 0 ∧ s.nextRequestId = 0 ∧ s.numFramesInBuffer = n := by
  unfold DataStream.create at h
  split at h
  · cases h
  · obtain ⟨-, -, -, rfl⟩ := DataStream.updateParameters_ok h
    exact ⟨rfl, rfl, rfl, rfl⟩

theorem Counters.of_created {s : DataStream} (h : Created s) : Counters s := by
  obtain ⟨type, dimensions, n, hn, hc⟩ := h
  obtain ⟨h1, h2, h3, h4⟩ := create_counters hc
  exact ⟨by omega, by omega, by omega, by omega⟩

theorem Counters.requestNewFrame {s : DataStream} (h : Counters s) (hr : RequestOk s) :
    Counters s.requestNewFrame.2 := by
  obtain ⟨h1, h2, h3, h4⟩ := h
  unfold RequestOk at hr
  by_cases hfull : s.lastId - s.firstId = s.numFramesInBuffer
  · have hf : s.requestNewFrame.2.firstId = s.firstId + 1 := if_pos hfull
    refine ⟨h1, ?_, ?_, ?_⟩
    · rw [hf]; show s.firstId + 1 ≤ s.lastId; omega
    · show s.lastId ≤ s.nextRequestId + 1; omega
    · rw [hf]; show s.nextRequestId + 1 ≤ s.firstId + 1 + s.numFramesInBuffer; omega
  · have hf : s.requestNewFrame.2.firstId = s.firstId := if_neg hfull
    refine ⟨h1, ?_, ?_, ?_⟩
    · rw [hf]; exact h2
    · show s.lastId ≤ s.nextRequestId + 1; omega
    · rw [hf]; show s.nextRequestId + 1 ≤ s.firstId + s.numFramesInBuffer; omega

theorem Counters.submitFrame {s : DataStream} (h : Counters s) {id : Nat} (hid : id < s.nextRequestId)
    (ts : UInt64) : Counters (s.submitFrame id ts) := by
  obtain ⟨h1, h2, h3, h4⟩ := h
  by_cases hge : s.lastId ≥ id + 1
  · have hl : (s.submitFrame id ts).lastId = s.lastId := if_pos hge
    exact ⟨h1, by rw [hl]; exact h2, by rw [hl]; exact h3, h4⟩
  · have hl : (s.submitFrame id ts).lastId = id + 1 := if_neg hge
    exact ⟨h1, by rw [hl]; show s.firstId ≤ id + 1; omega, by rw [hl]; exact hid, h4⟩

theorem Counters.inductive : (shared.restrict Uncrowded).Inductive Counters := by
  refine ⟨fun s h => .of_created h, fun s l s' h hst => ?_⟩
  obtain ⟨hg, hst⟩ := hst
  simp only [shared, LTS.ofFn] at hst
  cases l with
  | requestNewFrame =>
    simp only [writerStep, Option.some.injEq] at hst; subst hst
    exact h.requestNewFrame hg
  | submitFrame id ts =>
    simp only [writerStep] at hst
    split at hst
    · rename_i hid
      simp only [Option.some.injEq] at hst; subst hst
      exact h.submitFrame hid ts
    · cases hst

/-- Ids from the oldest frame to the newest request are in distinct slots. -/
theorem Counters.slot_ne {s : DataStream} (h : Counters s) {a b : Nat} (ha : s.firstId ≤ a)
    (ha' : a < s.nextRequestId) (hb : s.firstId ≤ b) (hb' : b < s.nextRequestId) (hne : a ≠ b) :
    a % s.numFramesInBuffer ≠ b % s.numFramesInBuffer := by
  have := h.next_le
  exact slot_ne_of_window ha hb (by omega) (by omega) hne

theorem Counters.window {s : DataStream} (h : Counters s) : Window s := by
  have h2 := h.first_le_last
  have h3 := h.last_le_next
  have h4 := h.next_le
  refine ⟨h2, by omega, fun a b ha hb he => ?_, fun id a hid hid' ha => ?_⟩
  · rw [DataStream.isFrameAvailable_iff] at ha hb
    by_cases hab : a = b
    · exact hab
    · exact absurd he (h.slot_ne ha.1 (by omega) hb.1 (by omega) hab)
  · rw [DataStream.isFrameAvailable_iff] at ha
    exact h.slot_ne ha.1 (by omega) (by omega) hid' (by omega)

/-- A crowded request overfills the window as soon as its id is submitted. -/
theorem not_window_of_crowded {s : DataStream} (h : Counters s) (hr : ¬ RequestOk s) (ts : UInt64) :
    ¬ Window (s.requestNewFrame.2.submitFrame s.nextRequestId ts) := by
  intro hw
  unfold RequestOk at hr
  have h3 := h.last_le_next
  have hf : s.requestNewFrame.2.firstId = s.firstId := if_neg (by omega)
  have hl : (s.requestNewFrame.2.submitFrame s.nextRequestId ts).lastId = s.nextRequestId + 1 :=
    if_neg (by show ¬ s.lastId ≥ s.nextRequestId + 1; omega)
  have hfits := hw.fits
  rw [hl] at hfits
  have hfits' : s.nextRequestId + 1 - s.requestNewFrame.2.firstId ≤ s.numFramesInBuffer := hfits
  rw [hf] at hfits'
  omega

/-- **The window under uncrowded requests.** In every run whose requests are
all uncrowded, every state keeps the window, and a crowded request made there
overfills it once its id is submitted. -/
theorem window_of_uncrowded (s : DataStream) (h : (shared.restrict Uncrowded).Reachable s) :
    Window s ∧
      (RequestOk s → Window s.requestNewFrame.2) ∧
      (¬ RequestOk s → ∀ ts, ∃ s', shared.Run s [.requestNewFrame, .submitFrame s.nextRequestId ts] s' ∧
        ¬ Window s') := by
  have hc := Counters.inductive.reachable s h
  refine ⟨hc.window, fun hr => (hc.requestNewFrame hr).window, fun hr ts => ?_⟩
  refine ⟨s.requestNewFrame.2.submitFrame s.nextRequestId ts, ?_, not_window_of_crowded hc hr ts⟩
  refine .cons rfl (.cons ?_ (.nil _))
  show writerStep s.requestNewFrame.2 (.submitFrame s.nextRequestId ts) = _
  exact if_pos (Nat.lt_succ_self s.nextRequestId)

/-- Two frames requested from a stream of two slots. -/
theorem window_of_uncrowded_two : ∃ s, s.firstId = 0 ∧ s.nextRequestId = 2 ∧ Window s := by
  refine ⟨_, ?_, ?_, (window_of_uncrowded _ ⟨_, [.requestNewFrame, .requestNewFrame],
    ⟨.uint8, [3], 2, by decide, rfl⟩, .cons ⟨.inr ?_, rfl⟩ (.cons ⟨.inr ?_, rfl⟩ (.nil _))⟩).1⟩
  · rfl
  · rfl
  · decide
  · decide

/-- Two requests on a stream of one slot, both submitted: two frames are
available at once. -/
theorem window_exceeded : ¬ ∀ s, shared.Reachable s → Window s := by
  intro h
  obtain ⟨s₀, hc, s, hs, hf, hl, hn⟩ : ∃ s₀, DataStream.create .uint8 [1] 1 = .ok s₀ ∧
      ∃ s, LTS.exec writerStep s₀
        [.requestNewFrame, .requestNewFrame, .submitFrame 0 10, .submitFrame 1 11] = some s ∧
      s.firstId = 0 ∧ s.lastId = 2 ∧ s.numFramesInBuffer = 1 := ⟨_, rfl, _, rfl, rfl, rfl, rfl⟩
  have hw := h s (.of_exec ⟨.uint8, [1], 1, by decide, hc⟩ hs)
  have := hw.fits
  omega

/-! ## Writers with their frames -/

/-- The stream, and for each id the frame `RequestNewFrame` returned, the
bytes its writer stored last and whether it was submitted. -/
structure Shared where
  stream : DataStream
  handle : Nat → Option DataFrame
  stored : Nat → Option (List UInt8)
  submitted : Nat → Bool

inductive WriterStep where
  | request
  | fill (id : Nat) (data : Mem)
  | submit (id : Nat) (timeStamp : UInt64)
  | update (l : Layout)

namespace Shared

/-- The writer of a requested id may store into its frame until it submits
it, once; a writer may ask for any layout with room for a frame. -/
def step (st : Shared) : WriterStep → Option Shared
  | .request =>
    let (frame, s) := st.stream.requestNewFrame
    some { st with stream := s, handle := Function.update st.handle frame.id (some frame) }
  | .fill id data =>
    match st.handle id with
    | none => none
    | some frame =>
      if st.submitted id = true then none
      else
        let n := frame.getSizeInBytes.toNat
        some { st with
          stream := st.stream.copyInto frame data n
          stored := Function.update st.stored id (some (data.read 0 n)) }
  | .submit id timeStamp =>
    if (st.handle id).isSome = true ∧ st.submitted id = false then
      some { st with
        stream := st.stream.submitFrame id timeStamp
        submitted := Function.update st.submitted id true }
    else none
  | .update l =>
    if 1 ≤ l.numFramesInBuffer then
      let s := st.stream
      some { st with
        stream := s.orSame (s.updateParameters l.dataType l.dimensions l.numFramesInBuffer) }
    else none

def init (st : Shared) : Prop :=
  Created st.stream ∧ (∀ id, st.handle id = none) ∧ (∀ id, st.stored id = none) ∧
    ∀ id, st.submitted id = false

end Shared

def writers : LTS Shared WriterStep := .ofFn Shared.init Shared.step

/-- Every available frame was submitted, and `GetFrame` shows the bytes its
own writer stored. -/
def Published (st : Shared) : Prop :=
  ∀ id, st.stream.isFrameAvailable id = true → st.submitted id = true ∧
    ∀ bytes, st.stored id = some bytes → ∀ wait, ∃ fr, st.stream.getFrame id wait = .frame fr ∧
      fr.id = id ∧ fr.bytes st.stream.buffer = bytes

/-- The checks of `UpdateParameters`. -/
def DataStream.Fits (s : DataStream) (l : Layout) : Prop :=
  ∃ size, calculateBufferSize l.dataType l.dimensions l.numFramesInBuffer = .ok size ∧
    size.numBytesInBuffer ≤ s.numBytesInBuffer

/-- Frames are submitted in the order they were requested, requests are
uncrowded, and a layout that is accepted leaves every frame that is requested
and not yet submitted in its place. -/
def Orderly (st : Shared) : WriterStep → Prop
  | .request => RequestOk st.stream
  | .fill _ _ => True
  | .submit id _ => id = st.stream.lastId
  | .update l => st.stream.Fits l → ∀ id, st.stream.lastId ≤ id → id < st.stream.nextRequestId →
      numElements l.dimensions * getSizeOfDataType l.dataType = st.stream.numBytesPerFrame ∧
        id % l.numFramesInBuffer = id % st.stream.numFramesInBuffer

/-- Every view of the stream spans one slot. -/
def DataStream.Framed (s : DataStream) : Prop :=
  ∀ id ts, (s.frameAt id ts).getSizeInBytes = s.numBytesPerFrame

structure Ordered (st : Shared) : Prop where
  counters : Counters st.stream
  framed : st.stream.Framed
  requested : ∀ id, (st.handle id).isSome = true → id < st.stream.nextRequestId
  kept : ∀ id, (st.stored id).isSome = true → id < st.stream.nextRequestId
  submitted : ∀ id, st.submitted id = true ↔ id < st.stream.lastId
  place : ∀ id frame, st.stream.lastId ≤ id → st.handle id = some frame →
    frame.data = st.stream.offset id ∧ frame.getSizeInBytes = st.stream.numBytesPerFrame
  bytes : ∀ id b, st.stream.firstId ≤ id → st.stored id = some b →
    st.stream.buffer.read (st.stream.offset id) st.stream.numBytesPerFrame.toNat = b

/-! ## What each step keeps -/

theorem framed_updateParameters {s s' : DataStream} {type : DataType} {dims : List UInt64} {n : Nat}
    (h : s.updateParameters type dims n = .ok s') : s'.Framed := by
  obtain ⟨h4, -, -, rfl⟩ := DataStream.updateParameters_ok h
  intro id ts
  show padDimensions dims 0 * padDimensions dims 1 * padDimensions dims 2 * padDimensions dims 3 *
    getSizeOfDataType type = _
  rw [numElements_pad dims h4]

theorem Created.framed {s : DataStream} (h : Created s) : s.Framed := by
  obtain ⟨type, dimensions, n, -, hc⟩ := h
  unfold DataStream.create at hc
  split at hc
  · cases hc
  · exact framed_updateParameters hc

/-- An accepted layout passed the checks. -/
theorem fits_of_ok {s s' : DataStream} {l : Layout}
    (h : s.updateParameters l.dataType l.dimensions l.numFramesInBuffer = .ok s') : s.Fits l := by
  unfold DataStream.updateParameters at h
  split at h
  · cases h
  · rename_i size hsize
    split at h
    · cases h
    · rename_i hle
      exact ⟨size, hsize, UInt64.not_lt.mp hle⟩

theorem Ordered.of_init {st : Shared} (h : st.init) : Ordered st := by
  obtain ⟨hc, hh, hst, hsub⟩ := h
  have hcount := Counters.of_created hc
  obtain ⟨type, dims, n, hn, hcr⟩ := hc
  obtain ⟨-, h2, -, -⟩ := create_counters hcr
  refine ⟨hcount, Created.framed ⟨type, dims, n, hn, hcr⟩, ?_, ?_, ?_, ?_, ?_⟩
  · intro id h; rw [hh id] at h; cases h
  · intro id h; rw [hst id] at h; cases h
  · intro id; rw [hsub id, h2]; simp
  · intro id frame _ h; rw [hh id] at h; cases h
  · intro id b _ h; rw [hst id] at h; cases h

/-- The frame handed out for a new id is in nobody's slot: nothing the other
writers stored or hold moves. -/
theorem Ordered.request {st st' : Shared} (h : Ordered st) (hr : RequestOk st.stream)
    (hst : st.step .request = some st') : Ordered st' := by
  simp only [Shared.step, Option.some.injEq] at hst; subst hst
  have hle : st.stream.firstId ≤ st.stream.requestNewFrame.2.firstId := by
    simp only [DataStream.requestNewFrame]; split <;> omega
  refine ⟨h.counters.requestNewFrame hr, h.framed, ?_, ?_, h.submitted, ?_, ?_⟩
  · intro id hid
    show id < st.stream.nextRequestId + 1
    by_cases hnew : id = st.stream.nextRequestId
    · omega
    · have hid' : (Function.update st.handle st.stream.nextRequestId
        (some st.stream.requestNewFrame.1) id).isSome = true := hid
      rw [Function.update_of_ne hnew] at hid'
      have := h.requested id hid'
      omega
  · intro id hid
    have := h.kept id hid
    show id < st.stream.nextRequestId + 1
    omega
  · intro id frame hid hh
    have hh' : Function.update st.handle st.stream.nextRequestId
      (some st.stream.requestNewFrame.1) id = some frame := hh
    by_cases hnew : id = st.stream.nextRequestId
    · subst hnew
      rw [Function.update_self] at hh'
      cases hh'
      exact ⟨rfl, h.framed _ _⟩
    · rw [Function.update_of_ne hnew] at hh'
      exact h.place id frame hid hh'
  · intro id b hid hb
    exact h.bytes id b (Nat.le_trans hle hid) hb

/-- Storing into the frame of an open id leaves the slots of all others alone. -/
theorem Ordered.fill {st st' : Shared} (h : Ordered st) {id : Nat} {data : Mem}
    (hst : st.step (.fill id data) = some st') : Ordered st' := by
  simp only [Shared.step] at hst
  split at hst
  · cases hst
  · rename_i frame hframe
    split at hst
    · cases hst
    · rename_i hnsub
      simp only [Option.some.injEq] at hst; subst hst
      have hlt := h.requested id (by rw [hframe]; rfl)
      have hopen : st.stream.lastId ≤ id := Nat.not_lt.mp fun hl => hnsub ((h.submitted id).mpr hl)
      obtain ⟨hdata, hsize⟩ := h.place id frame hopen hframe
      refine ⟨⟨h.counters.pos, h.counters.first_le_last, h.counters.last_le_next,
        h.counters.next_le⟩, h.framed, h.requested, ?_, h.submitted, h.place, ?_⟩
      · intro i hi
        by_cases hid : i = id
        · subst hid; exact hlt
        · have hi' : (Function.update st.stored id _ i).isSome = true := hi
          rw [Function.update_of_ne hid] at hi'
          exact h.kept i hi'
      · intro i b hi hb
        have hb' : Function.update st.stored id
          (some (data.read 0 frame.getSizeInBytes.toNat)) i = some b := hb
        show (st.stream.buffer.memcpy frame.data data frame.getSizeInBytes.toNat).read
          (st.stream.offset i) st.stream.numBytesPerFrame.toNat = b
        rw [hdata, hsize]
        by_cases hid : i = id
        · subst hid
          rw [Function.update_self, hsize] at hb'
          cases hb'
          exact Mem.read_memcpy_self _ _ _ _
        · rw [Function.update_of_ne hid] at hb'
          have hilt := h.kept i (by rw [hb']; rfl)
          have hfl := h.counters.first_le_last
          have hne := h.counters.slot_ne (a := i) (b := id) hi hilt (by omega) hlt hid
          have hdisj := slotOffset_disjoint st.stream.numBytesPerFrame.toNat hne
          rw [Mem.read_memcpy_of_disjoint _ _ (by unfold DataStream.offset; omega)]
          exact h.bytes i b hi hb'

theorem Ordered.submit {st st' : Shared} (h : Ordered st) {id : Nat} {ts : UInt64}
    (hid : id = st.stream.lastId) (hst : st.step (.submit id ts) = some st') : Ordered st' := by
  simp only [Shared.step] at hst
  split at hst
  · rename_i hg
    simp only [Option.some.injEq] at hst; subst hst
    have hlt := h.requested id hg.1
    have hl : (st.stream.submitFrame id ts).lastId = id + 1 :=
      if_neg (by omega)
    refine ⟨h.counters.submitFrame hlt ts, h.framed, h.requested, h.kept, ?_, ?_, h.bytes⟩
    · intro i
      rw [hl]
      show Function.update st.submitted id true i = true ↔ _
      by_cases hi : i = id
      · subst hi; simp
      · rw [Function.update_of_ne hi, h.submitted i]; omega
    · intro i frame hi hf
      rw [hl] at hi
      exact h.place i frame (by omega) hf
  · cases hst

/-- Open ids that keep their place fit a smaller buffer too. -/
theorem open_le_of_same_place {first last next n n' : Nat} (hfirst : first ≤ last)
    (hnext : next ≤ first + n) (hpos : 1 ≤ n')
    (hplace : ∀ id, last ≤ id → id < next → id % n' = id % n) : next ≤ last + n' := by
  by_cases hle : next ≤ last + n'
  · exact hle
  · -- `last` and `last + n'` are both open, in one slot of the smaller buffer
    have h1 := hplace last (Nat.le_refl _) (by omega)
    have h2 := hplace (last + n') (by omega) (by omega)
    rw [Nat.add_mod_right, h1] at h2
    have := slot_inj (n := n) (Nat.le_add_right last n') (by omega) h2
    omega

theorem Ordered.update {st st' : Shared} (h : Ordered st) {l : Layout} (hg : Orderly st (.update l))
    (hst : st.step (.update l) = some st') : Ordered st' := by
  simp only [Shared.step] at hst
  split at hst
  · rename_i hpos
    simp only [Option.some.injEq] at hst; subst hst
    cases hu : st.stream.updateParameters l.dataType l.dimensions l.numFramesInBuffer with
    | error e => exact h
    | ok s' =>
      have hplace := hg (fits_of_ok hu)
      have hframed := framed_updateParameters hu
      obtain ⟨-, -, -, rfl⟩ := DataStream.updateParameters_ok hu
      have hc := h.counters
      have hsame : ∀ id, st.stream.lastId ≤ id → id < st.stream.nextRequestId →
          slotOffset l.numFramesInBuffer
            (numElements l.dimensions * getSizeOfDataType l.dataType).toNat id =
              st.stream.offset id := by
        intro id h1 h2
        obtain ⟨e1, e2⟩ := hplace id h1 h2
        unfold DataStream.offset slotOffset
        rw [e1, e2]
      refine ⟨⟨hpos, Nat.le_refl _, hc.last_le_next, ?_⟩, hframed, h.requested, h.kept, h.submitted,
        ?_, ?_⟩
      · exact open_le_of_same_place hc.first_le_last hc.next_le hpos
          fun id h1 h2 => (hplace id h1 h2).2
      · intro id frame hid hf
        have hlt := h.requested id (by rw [hf]; rfl)
        obtain ⟨hdata, hsize⟩ := h.place id frame hid hf
        exact ⟨hdata.trans (hsame id hid hlt).symm, hsize.trans (hplace id hid hlt).1.symm⟩
      · intro id b hid hb
        have hlt := h.kept id (by rw [hb]; rfl)
        have hb' := h.bytes id b (Nat.le_trans hc.first_le_last hid) hb
        rw [← hsame id hid hlt, ← (hplace id hid hlt).1] at hb'
        exact hb'
  · cases hst

/-- **One step of any writer.** -/
theorem Ordered.inductive : (writers.restrict Orderly).Inductive Ordered := by
  refine ⟨fun st h => .of_init h, fun st l st' h hst => ?_⟩
  obtain ⟨hg, hst⟩ := hst
  cases l with
  | request => exact h.request hg hst
  | fill id data => exact h.fill hst
  | submit id ts => exact h.submit hg hst
  | update l => exact h.update hg hst

theorem Ordered.published {st : Shared} (h : Ordered st) : Published st := by
  intro id hav
  have hid := DataStream.isFrameAvailable_iff.mp hav
  refine ⟨(h.submitted id).mpr hid.2, fun bytes hb wait => ?_⟩
  refine ⟨_, if_pos hav, rfl, ?_⟩
  unfold DataFrame.bytes
  rw [h.framed]
  exact h.bytes id bytes hid.1 hb

/-- Submitting past an open id publishes that id. -/
theorem not_published_of_overtaken {st st' : Shared} (h : Ordered st) {id : Nat} {ts : UInt64}
    (hid : id ≠ st.stream.lastId) (hst : st.step (.submit id ts) = some st') : ¬ Published st' := by
  simp only [Shared.step] at hst
  split at hst
  · rename_i hg
    simp only [Option.some.injEq] at hst; subst hst
    intro hp
    have hopen : ¬ id < st.stream.lastId := by
      intro hl
      have := (h.submitted id).mpr hl
      rw [hg.2] at this; cases this
    have hl : (st.stream.submitFrame id ts).lastId = id + 1 := if_neg (by omega)
    have hav : (st.stream.submitFrame id ts).isFrameAvailable st.stream.lastId = true := by
      rw [DataStream.isFrameAvailable_iff, hl]
      exact ⟨h.counters.first_le_last, by omega⟩
    have hsub : Function.update st.submitted id true st.stream.lastId = true := (hp _ hav).1
    rw [Function.update_of_ne hid.symm, h.submitted] at hsub
    exact Nat.lt_irrefl _ hsub
  · cases hst

/-- **Publication by orderly writers.** In every run of orderly steps, every
available frame was submitted and shows what its own writer stored. A frame
submitted out of order breaks this at once. -/
theorem published_of_orderly (st : Shared) (h : (writers.restrict Orderly).Reachable st) :
    Published st ∧ ∀ id ts st', st.step (.submit id ts) = some st' → id ≠ st.stream.lastId →
      ¬ Published st' := by
  have ho := Ordered.inductive.reachable st h
  exact ⟨ho.published, fun id ts st' hst hid => not_published_of_overtaken ho hid hst⟩

/-- No writer has called yet. -/
def Shared.fresh (s : DataStream) : Shared := ⟨s, fun _ => none, fun _ => none, fun _ => false⟩

theorem Shared.init_fresh {s : DataStream} (h : Created s) : (fresh s).init :=
  ⟨h, fun _ => rfl, fun _ => rfl, fun _ => rfl⟩

/-- Two writers fill their frames in either order and submit in order. -/
theorem published_of_orderly_two :
    ∃ st : Shared, st.stream.isFrameAvailable 1 = true ∧ st.stored 1 = some [7, 7, 7] ∧ Published st := by
  refine ⟨_, ?_, ?_, (published_of_orderly _ ⟨Shared.fresh _, [.request, .request,
    .fill 1 fun _ => 7, .fill 0 fun _ => 5, .submit 0 10, .submit 1 11],
    Shared.init_fresh ⟨.uint8, [3], 2, by decide, rfl⟩, .cons ⟨.inr ?_, rfl⟩ (.cons ⟨.inr ?_, rfl⟩
      (.cons ⟨trivial, rfl⟩ (.cons ⟨trivial, rfl⟩ (.cons ⟨?_, rfl⟩ (.cons ⟨?_, rfl⟩ (.nil _))))))⟩).1⟩
  · rfl
  · rfl
  · decide
  · decide
  · rfl
  · rfl

/-- The second writer is faster: its submission publishes the frame the first
writer has not even filled. -/
theorem frame_published_unsubmitted : ¬ ∀ st, writers.Reachable st → Published st := by
  intro h
  obtain ⟨s₀, hc, st, hst, hav, hsub⟩ : ∃ s₀, DataStream.create .uint8 [3] 2 = .ok s₀ ∧
      ∃ st, LTS.exec Shared.step (.fresh s₀) [.request, .request, .fill 1 fun _ => 7, .submit 1 10] =
        some st ∧ st.stream.isFrameAvailable 0 = true ∧ st.submitted 0 = false :=
    ⟨_, rfl, _, rfl, rfl, rfl⟩
  have hp := h st (.of_exec (Shared.init_fresh ⟨.uint8, [3], 2, by decide, hc⟩) hst)
  rw [(hp 0 hav).1] at hsub
  cases hsub

end Catkit2.L2
