import Catkit2.Core.Memory
import Catkit2.L1Encoding.Tensor
import Mathlib.Logic.Function.Basic

/-!
# Data streams in shared memory (catkit_core/DataStream.h, catkit_core/DataStream.cpp)

`DataStream` is the shared memory of one stream: the header fields the
operations below read and write, and the buffer behind it. The name, the
owner and the frame rate estimate are left out: nothing modelled reads them.

The three ids are the atomic counters `m_FirstId`, `m_LastId` and
`m_NextRequestId`, here unbounded (a stream does not reach 2^64 frames).
Sizes are `UInt64` and wrap, as `size_t` does.

A `DataFrame` is a view: `m_Data` is an offset into the buffer, and the bytes
a reader sees are those in the buffer when it looks (`DataFrame.bytes`).
-/
namespace Catkit2.L2

open Catkit2.L1

/-- mirrors catkit_core/DataStream.h:14 -/
def MAX_NUM_FRAMES_IN_BUFFER : Nat := 20

/-- `sizeof(DataStreamHeader)` on x86-64 Linux; no result depends on it.
mirrors catkit_core/DataStream.h:22-49 -/
def sizeofDataStreamHeader : UInt64 := 912

/-- The results of `CalculateBufferSize`. -/
structure BufferSize where
  numElementsPerFrame : UInt64
  numBytesPerFrame : UInt64
  numBytesInBuffer : UInt64
  deriving DecidableEq, Repr

/-- mirrors catkit_core/DataStream.cpp:45-62 -/
def calculateBufferSize (type : DataType) (dimensions : List UInt64) (numFramesInBuffer : Nat) :
    Except String BufferSize :=
  if dimensions.length > 4 then
    .error "Maximum dimensionality of the frames is 4."
  else if numFramesInBuffer > MAX_NUM_FRAMES_IN_BUFFER then
    .error "Too many frames requested for the buffer."
  else
    let numElementsPerFrame := numElements dimensions
    let numBytesPerFrame := numElementsPerFrame * getSizeOfDataType type
    .ok ⟨numElementsPerFrame, numBytesPerFrame,
      sizeofDataStreamHeader + numBytesPerFrame * UInt64.ofNat numFramesInBuffer⟩

/-- mirrors catkit_core/DataStream.h:51-56 -/
structure DataFrame extends Tensor Nat where
  id : Nat
  timeStamp : UInt64

/-- mirrors catkit_core/DataStream.h:17-49 -/
structure DataStream where
  dataType : DataType
  numDimensions : Nat
  dimensions : Fin 4 → UInt64
  numElementsPerFrame : UInt64
  numBytesPerFrame : UInt64
  numBytesInBuffer : UInt64
  numFramesInBuffer : Nat
  frameMetadata : Nat → UInt64
  firstId : Nat
  lastId : Nat
  nextRequestId : Nat
  buffer : Mem

namespace DataStream

/-! ## Layout -/

/-- mirrors catkit_core/DataStream.cpp:269-292 -/
def updateParameters (s : DataStream) (type : DataType) (dimensions : List UInt64)
    (numFramesInBuffer : Nat) : Except String DataStream :=
  match calculateBufferSize type dimensions numFramesInBuffer with
  | .error e => .error e
  | .ok size =>
    if size.numBytesInBuffer > s.numBytesInBuffer then
      .error "New parameters would exceed the allocated shared memory buffer size."
    else
      .ok { s with
        firstId := s.lastId  -- make all frames unavailable
        dataType := type
        numDimensions := dimensions.length
        dimensions := padDimensions dimensions
        numElementsPerFrame := size.numElementsPerFrame
        numBytesPerFrame := size.numBytesPerFrame
        numFramesInBuffer := numFramesInBuffer }

/-- Fresh shared memory is zero; the first `UpdateParameters` fills in the layout.
mirrors catkit_core/DataStream.cpp:86-123 -/
def create (type : DataType) (dimensions : List UInt64) (numFramesInBuffer : Nat) :
    Except String DataStream :=
  match calculateBufferSize type dimensions numFramesInBuffer with
  | .error e => .error e
  | .ok size =>
    updateParameters
      { dataType := .uint8, numDimensions := 0, dimensions := fun _ => 0
        numElementsPerFrame := 0, numBytesPerFrame := 0
        numBytesInBuffer := size.numBytesInBuffer
        numFramesInBuffer := 0, frameMetadata := fun _ => 0
        firstId := 0, lastId := 0, nextRequestId := 0, buffer := fun _ => 0 }
      type dimensions numFramesInBuffer

/-- mirrors catkit_core/DataStream.cpp:229-232 -/
def getDimensions (s : DataStream) : List UInt64 :=
  ((List.finRange 4).take s.numDimensions).map s.dimensions

/-- mirrors catkit_core/DataStream.cpp:254-257 -/
def setDataType (s : DataStream) (type : DataType) : Except String DataStream :=
  s.updateParameters type s.getDimensions s.numFramesInBuffer

/-- mirrors catkit_core/DataStream.cpp:259-262 -/
def setDimensions (s : DataStream) (dimensions : List UInt64) : Except String DataStream :=
  s.updateParameters s.dataType dimensions s.numFramesInBuffer

/-- mirrors catkit_core/DataStream.cpp:264-267 -/
def setNumFramesInBuffer (s : DataStream) (numFramesInBuffer : Nat) : Except String DataStream :=
  s.updateParameters s.dataType s.getDimensions numFramesInBuffer

/-! ## Frames -/

/-- `(id % m_NumFramesInBuffer) * m_NumBytesPerFrame` -/
def offset (s : DataStream) (id : Nat) : Nat :=
  slotOffset s.numFramesInBuffer s.numBytesPerFrame.toNat id

/-- The view of `id`'s slot that `RequestNewFrame` and `GetFrame` build. -/
def frameAt (s : DataStream) (id : Nat) (timeStamp : UInt64) : DataFrame where
  dataType := s.dataType
  numDimensions := s.numDimensions
  dimensions := s.dimensions
  data := s.offset id
  id := id
  timeStamp := timeStamp

/-- mirrors catkit_core/DataStream.cpp:147-168 -/
def requestNewFrame (s : DataStream) : DataFrame × DataStream :=
  -- if the frame buffer is full: make oldest frame unavailable
  let firstId := if s.lastId - s.firstId = s.numFramesInBuffer then s.firstId + 1 else s.firstId
  (s.frameAt s.nextRequestId 0, { s with firstId := firstId, nextRequestId := s.nextRequestId + 1 })

/-- `timeStamp` is what `GetTimeStamp` returns. The compare-exchange loop is
one step here: it leaves `m_LastId` at the larger of its value and `id + 1`.
mirrors catkit_core/DataStream.cpp:170-213 -/
def submitFrame (s : DataStream) (id : Nat) (timeStamp : UInt64) : DataStream :=
  { s with
    frameMetadata := Function.update s.frameMetadata (id % s.numFramesInBuffer) timeStamp
    lastId := if s.lastId ≥ id + 1 then s.lastId else id + 1 }

/-- `std::memcpy(frame.m_Data, data, n)` into the shared buffer. -/
def copyInto (s : DataStream) (frame : DataFrame) (data : Mem) (n : Nat) : DataStream :=
  { s with buffer := s.buffer.memcpy frame.data data n }

/-- mirrors catkit_core/DataStream.cpp:215-227 -/
def submitData (s : DataStream) (data : Mem) (timeStamp : UInt64) : DataStream :=
  let (frame, s) := s.requestNewFrame
  let s := s.copyInto frame data frame.getSizeInBytes.toNat
  s.submitFrame frame.id timeStamp

/-! ## Reading -/

/-- mirrors catkit_core/DataStream.cpp:401-404 -/
def isFrameAvailable (s : DataStream) (id : Nat) : Bool :=
  decide (id ≥ s.firstId ∧ id < s.lastId)

/-- mirrors catkit_core/DataStream.cpp:406-409 -/
def willFrameBeAvailable (s : DataStream) (id : Nat) : Bool := decide (id ≥ s.firstId)

/-- mirrors catkit_core/DataStream.cpp:416-423 -/
def getNewestAvailableFrameId (s : DataStream) : Nat := if s.lastId = 0 then 0 else s.lastId - 1

/-- What a call to `GetFrame` does first: return a view, throw, or enter
`Synchronization::Wait` for `m_LastId > id`. -/
inductive Fetch where
  | frame (f : DataFrame)
  | error (msg : String)
  | wait

/-- mirrors catkit_core/DataStream.cpp:319-348 -/
def getFrame (s : DataStream) (id : Nat) (waitTimeInMs : Int) : Fetch :=
  if s.isFrameAvailable id then
    .frame (s.frameAt id (s.frameMetadata (id % s.numFramesInBuffer)))
  else if ¬ s.willFrameBeAvailable id then
    .error "Frame will never be available anymore."
  else if ¬ waitTimeInMs > 0 then
    .error "Frame is not available yet."
  else .wait

/-- mirrors catkit_core/DataStream.cpp:383-389 -/
def getLatestFrame (s : DataStream) : Fetch :=
  if s.lastId = 0 then
    .error "DataStream does not have any frames when trying to get the latest one."
  else s.getFrame s.getNewestAvailableFrameId (-1)

end DataStream

/-- The bytes a reader sees through a view. -/
def DataFrame.bytes (f : DataFrame) (buffer : Mem) : List UInt8 :=
  buffer.read f.data f.getSizeInBytes.toNat

namespace DataStream

theorem isFrameAvailable_iff {s : DataStream} {id : Nat} :
    s.isFrameAvailable id = true ↔ s.firstId ≤ id ∧ id < s.lastId := by
  simp [isFrameAvailable]

/-- The newest frame, when it is available, is the latest one. -/
theorem getLatestFrame_of_available {s : DataStream} {n : Nat} (hl : s.lastId = n + 1)
    (h : s.isFrameAvailable n = true) :
    s.getLatestFrame = .frame (s.frameAt n (s.frameMetadata (n % s.numFramesInBuffer))) := by
  have hnew : s.getNewestAvailableFrameId = n := by
    unfold getNewestAvailableFrameId
    rw [hl, if_neg (Nat.succ_ne_zero n), Nat.add_sub_cancel]
  unfold getLatestFrame
  rw [hl, if_neg (Nat.succ_ne_zero n), hnew]
  exact if_pos h

/-! ## What each operation changes -/

@[simp] theorem frameAt_id (s : DataStream) (id : Nat) (ts : UInt64) : (s.frameAt id ts).id = id := rfl

/-- An accepted `UpdateParameters` passed both size checks and changed the
layout and the left edge only. -/
theorem updateParameters_ok {s s' : DataStream} {type : DataType} {dims : List UInt64} {n : Nat}
    (h : s.updateParameters type dims n = .ok s') :
    dims.length ≤ 4 ∧ n ≤ MAX_NUM_FRAMES_IN_BUFFER ∧
      sizeofDataStreamHeader + numElements dims * getSizeOfDataType type * UInt64.ofNat n ≤
        s.numBytesInBuffer ∧
      s' = { s with
        firstId := s.lastId
        dataType := type
        numDimensions := dims.length
        dimensions := padDimensions dims
        numElementsPerFrame := numElements dims
        numBytesPerFrame := numElements dims * getSizeOfDataType type
        numFramesInBuffer := n } := by
  unfold updateParameters calculateBufferSize at h
  split at h
  · cases h
  · rename_i size hsize
    split at hsize
    · cases hsize
    · split at hsize
      · cases hsize
      · simp only [Except.ok.injEq] at hsize; subst hsize
        split at h
        · cases h
        · rename_i h1 h2 h3
          simp only [Except.ok.injEq] at h; subst h
          exact ⟨by omega, by omega, UInt64.not_lt.mp h3, rfl⟩

/-- A layout that passes the size checks is accepted. -/
theorem updateParameters_of_le (s : DataStream) (type : DataType) (dims : List UInt64) (n : Nat)
    (h1 : dims.length ≤ 4) (h2 : n ≤ MAX_NUM_FRAMES_IN_BUFFER)
    (h3 : sizeofDataStreamHeader + numElements dims * getSizeOfDataType type * UInt64.ofNat n ≤
      s.numBytesInBuffer) : ∃ s', s.updateParameters type dims n = .ok s' := by
  unfold updateParameters calculateBufferSize
  rw [if_neg (by omega), if_neg (by omega)]
  simp only
  rw [if_neg (UInt64.not_lt.mpr h3)]
  exact ⟨_, rfl⟩

end DataStream

end Catkit2.L2
