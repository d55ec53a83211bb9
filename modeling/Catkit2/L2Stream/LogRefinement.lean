import Catkit2.Core.TailLog
import Catkit2.L2Stream.DataStream

/-!
# A stream with one writer is the tail of an append-only log

The purpose of a data stream: frames are appended under consecutive ids, and
a reader sees the newest `numFramesInBuffer` of them, none from before the
last accepted change of layout. `StreamLog` says so in its own terms (a
`TailLog` of frames, sizes in unbounded arithmetic); `DataStream` is the ring
in shared memory. `Mirrors` relates the two: the counters are the edges of
the tail, and the slot of each visible id holds that id's frame.

A run is a list of calls (`Call`), rejected ones included; `exec` leaves the
stream as it was when the call throws. The calls satisfy the assumptions of
the writer (`Layout.Sized`): at least one frame, and a size that `size_t`
holds.

* `mirrors_exec`: every call keeps `Mirrors`, whatever it does.
* `stream_refines_log`: after any run the ring shows the tail of the log, and
  nothing else, also while a submission is half done.
-/
namespace Catkit2.L2

open Catkit2.L1

/-! ## The log -/

/-- A frame as it was submitted. -/
structure LoggedFrame where
  bytes : List UInt8
  timeStamp : UInt64
  dataType : DataType
  dimensions : List UInt64

structure Layout where
  dataType : DataType
  dimensions : List UInt64
  numFramesInBuffer : Nat

namespace Layout

def bytesPerFrame (l : Layout) : Nat := frameBytes l.dataType l.dimensions

/-- The shared memory a stream of this layout needs. -/
def bytesNeeded (l : Layout) : Nat :=
  sizeofDataStreamHeader.toNat + l.bytesPerFrame * l.numFramesInBuffer

def Accepted (allocated : Nat) (l : Layout) : Prop :=
  l.dimensions.length ≤ 4 ∧ l.numFramesInBuffer ≤ MAX_NUM_FRAMES_IN_BUFFER ∧ l.bytesNeeded ≤ allocated

instance (allocated : Nat) (l : Layout) : Decidable (Accepted allocated l) := by
  unfold Accepted; exact inferInstance

/-- What the writer promises of a layout it asks for. -/
def Sized (l : Layout) : Prop :=
  1 ≤ l.numFramesInBuffer ∧
    (l.dimensions.length ≤ 4 → l.numFramesInBuffer ≤ MAX_NUM_FRAMES_IN_BUFFER → l.bytesNeeded < 2 ^ 64)

end Layout

structure StreamLog where
  log : TailLog LoggedFrame
  layout : Layout
  allocated : Nat

/-- A call of the writer. -/
inductive Call where
  | submitData (data : Mem) (timeStamp : UInt64)
  | updateParameters (l : Layout)
  | setDataType (type : DataType)
  | setDimensions (dimensions : List UInt64)
  | setNumFramesInBuffer (n : Nat)

namespace StreamLog

def created (l : Layout) : StreamLog := ⟨.empty l.numFramesInBuffer, l, l.bytesNeeded⟩

/-- The frame a submission of `data` at `timeStamp` logs. -/
def frame (a : StreamLog) (data : Mem) (timeStamp : UInt64) : LoggedFrame :=
  ⟨data.read 0 a.layout.bytesPerFrame, timeStamp, a.layout.dataType, a.layout.dimensions⟩

def submitData (a : StreamLog) (data : Mem) (timeStamp : UInt64) : StreamLog :=
  { a with log := a.log.append (a.frame data timeStamp) }

def relayout (a : StreamLog) (l : Layout) : StreamLog :=
  if l.Accepted a.allocated then { a with log := a.log.recut l.numFramesInBuffer, layout := l } else a

/-- The layout a call asks for. -/
def requested (a : StreamLog) : Call → Option Layout
  | .submitData _ _ => none
  | .updateParameters l => some l
  | .setDataType type => some { a.layout with dataType := type }
  | .setDimensions dimensions => some { a.layout with dimensions := dimensions }
  | .setNumFramesInBuffer n => some { a.layout with numFramesInBuffer := n }

def exec (a : StreamLog) (c : Call) : StreamLog :=
  match c with
  | .submitData data timeStamp => a.submitData data timeStamp
  | c => match a.requested c with
    | some l => a.relayout l
    | none => a

def replay (a : StreamLog) (calls : List Call) : StreamLog := calls.foldl exec a

/-- Every layout asked for along the run is sized. -/
def Sized : StreamLog → List Call → Prop
  | _, [] => True
  | a, c :: calls => (∀ l, a.requested c = some l → l.Sized) ∧ Sized (a.exec c) calls

end StreamLog

/-! ## The ring -/

namespace DataStream

/-- A call that throws leaves the stream as it was. -/
def orSame (s : DataStream) : Except String DataStream → DataStream
  | .ok s' => s'
  | .error _ => s

def exec (s : DataStream) : Call → DataStream
  | .submitData data timeStamp => s.submitData data timeStamp
  | .updateParameters l => s.orSame (s.updateParameters l.dataType l.dimensions l.numFramesInBuffer)
  | .setDataType type => s.orSame (s.setDataType type)
  | .setDimensions dimensions => s.orSame (s.setDimensions dimensions)
  | .setNumFramesInBuffer n => s.orSame (s.setNumFramesInBuffer n)

def run (s : DataStream) (calls : List Call) : DataStream := calls.foldl exec s

/-- The slot of `id` holds frame `f`. -/
structure Holds (s : DataStream) (id : Nat) (f : LoggedFrame) : Prop where
  bytes : s.buffer.read (s.offset id) s.numBytesPerFrame.toNat = f.bytes
  timeStamp : s.frameMetadata (id % s.numFramesInBuffer) = f.timeStamp
  dataType : s.dataType = f.dataType
  dimensions : s.getDimensions = f.dimensions

end DataStream

/-- The header is that of layout `l`, which fits the allocation. -/
structure HasLayout (s : DataStream) (l : Layout) : Prop where
  dataType : s.dataType = l.dataType
  numDimensions : s.numDimensions = l.dimensions.length
  dimensions : s.dimensions = padDimensions l.dimensions
  numFrames : s.numFramesInBuffer = l.numFramesInBuffer
  bytesPerFrame : s.numBytesPerFrame.toNat = l.bytesPerFrame
  pos : 1 ≤ l.numFramesInBuffer
  rank : l.dimensions.length ≤ 4
  fits : l.bytesNeeded ≤ s.numBytesInBuffer.toNat

structure Mirrors (s : DataStream) (a : StreamLog) : Prop where
  layout : HasLayout s a.layout
  cap : a.log.cap = a.layout.numFramesInBuffer
  allocated : s.numBytesInBuffer.toNat = a.allocated
  firstId : s.firstId = a.log.oldest
  lastId : s.lastId = a.log.entries.length
  nextRequestId : s.nextRequestId = a.log.entries.length
  holds : ∀ id f, a.log.Visible id → a.log.entries[id]? = some f → s.Holds id f

/-! ## Sizes -/

theorem Layout.bytesPerFrame_le {l : Layout} (h : 1 ≤ l.numFramesInBuffer) :
    l.bytesPerFrame ≤ l.bytesNeeded := by
  have := Nat.le_mul_of_pos_right l.bytesPerFrame h
  unfold bytesNeeded; omega

theorem HasLayout.small {s : DataStream} {l : Layout} (h : HasLayout s l) :
    l.bytesPerFrame < 2 ^ 64 := by
  have := Layout.bytesPerFrame_le h.pos
  have := h.fits
  have := s.numBytesInBuffer.toNat_lt
  omega

/-- The wrapped frame size of a sized layout is the true one. -/
theorem Layout.Sized.small {l : Layout} (h : l.Sized) (h4 : l.dimensions.length ≤ 4)
    (h20 : l.numFramesInBuffer ≤ MAX_NUM_FRAMES_IN_BUFFER) : l.bytesPerFrame < 2 ^ 64 :=
  Nat.lt_of_le_of_lt (bytesPerFrame_le h.1) (h.2 h4 h20)

/-- The wrapped buffer size of a sized layout is the true one. -/
theorem Layout.Sized.bytes_toNat {l : Layout} (h : l.Sized) (h4 : l.dimensions.length ≤ 4)
    (h20 : l.numFramesInBuffer ≤ MAX_NUM_FRAMES_IN_BUFFER) :
    (sizeofDataStreamHeader + numElements l.dimensions * getSizeOfDataType l.dataType *
      UInt64.ofNat l.numFramesInBuffer).toNat = l.bytesNeeded := by
  have hs : frameBytes l.dataType l.dimensions < 2 ^ 64 := h.small h4 h20
  have hb := h.2 h4 h20
  have hn : (UInt64.ofNat l.numFramesInBuffer).toNat = l.numFramesInBuffer := by
    rw [UInt64.toNat_ofNat']
    exact Nat.mod_eq_of_lt (by unfold MAX_NUM_FRAMES_IN_BUFFER at h20; omega)
  rw [UInt64.toNat_add, UInt64.toNat_mul, numElements_mul_size_toNat _ _ hs, hn]
  unfold Layout.bytesNeeded Layout.bytesPerFrame at *
  rw [Nat.add_mod_mod, Nat.mod_eq_of_lt hb]

theorem HasLayout.getDimensions {s : DataStream} {l : Layout} (h : HasLayout s l) :
    s.getDimensions = l.dimensions := by
  unfold DataStream.getDimensions
  rw [h.numDimensions, h.dimensions, take_padDimensions _ h.rank]

/-- A view of any slot spans exactly `m_NumBytesPerFrame` bytes. -/
theorem HasLayout.size_frameAt {s : DataStream} {l : Layout} (h : HasLayout s l) (id : Nat)
    (ts : UInt64) : (s.frameAt id ts).getSizeInBytes.toNat = s.numBytesPerFrame.toNat := by
  have hn : (s.frameAt id ts).getNumElements = numElements l.dimensions := by
    rw [← numElements_pad l.dimensions h.rank, ← h.dimensions]; rfl
  have hd : (s.frameAt id ts).dataType = l.dataType := h.dataType
  rw [Tensor.getSizeInBytes, hn, hd, numElements_mul_size_toNat _ _ h.small, h.bytesPerFrame]
  rfl

/-- Every slot lies inside the shared memory that was allocated. -/
theorem HasLayout.offset_add_le {s : DataStream} {l : Layout} (h : HasLayout s l) (id : Nat) :
    sizeofDataStreamHeader.toNat + (s.offset id + s.numBytesPerFrame.toNat) ≤
      s.numBytesInBuffer.toNat := by
  have h1 := slotOffset_add_le h.pos l.bytesPerFrame id
  have h2 := h.fits
  unfold DataStream.offset
  rw [h.numFrames, h.bytesPerFrame]
  unfold Layout.bytesNeeded at h2
  rw [Nat.mul_comm] at h1
  omega

/-! ## Changing the layout -/

/-- The code accepts exactly the sized layouts that the log accepts. -/
theorem updateParameters_isOk_iff {s : DataStream} {a : StreamLog} (h : Mirrors s a) {l : Layout}
    (hl : l.Sized) :
    (∃ s', s.updateParameters l.dataType l.dimensions l.numFramesInBuffer = .ok s') ↔
      l.Accepted a.allocated := by
  constructor
  · rintro ⟨s', hs'⟩
    obtain ⟨h4, h20, hle, -⟩ := DataStream.updateParameters_ok hs'
    rw [UInt64.le_iff_toNat_le, hl.bytes_toNat h4 h20, h.allocated] at hle
    exact ⟨h4, h20, hle⟩
  · rintro ⟨h4, h20, hle⟩
    apply s.updateParameters_of_le _ _ _ h4 h20
    rw [UInt64.le_iff_toNat_le, hl.bytes_toNat h4 h20, h.allocated]
    exact hle

/-- An accepted layout is the header's from then on. -/
theorem hasLayout_updateParameters {s s' : DataStream} {l : Layout} (hl : l.Sized)
    (h : s.updateParameters l.dataType l.dimensions l.numFramesInBuffer = .ok s') :
    HasLayout s' l := by
  obtain ⟨h4, h20, hle, rfl⟩ := DataStream.updateParameters_ok h
  have hsz : (numElements l.dimensions * getSizeOfDataType l.dataType).toNat = l.bytesPerFrame :=
    numElements_mul_size_toNat _ _ (hl.small h4 h20)
  rw [UInt64.le_iff_toNat_le, hl.bytes_toNat h4 h20] at hle
  exact ⟨rfl, rfl, rfl, rfl, hsz, hl.1, h4, hle⟩

/-- `Create` succeeds with the layout it was given, and no frames. -/
theorem create_ok {l : Layout} (hl : l.Sized) {s : DataStream}
    (h : DataStream.create l.dataType l.dimensions l.numFramesInBuffer = .ok s) :
    HasLayout s l ∧ s.numBytesInBuffer.toNat = l.bytesNeeded ∧
      s.firstId = 0 ∧ s.lastId = 0 ∧ s.nextRequestId = 0 := by
  unfold DataStream.create at h
  split at h
  · cases h
  · rename_i size hsize
    have hlay := hasLayout_updateParameters hl h
    obtain ⟨h4, h20, -, rfl⟩ := DataStream.updateParameters_ok h
    refine ⟨hlay, ?_, rfl, rfl, rfl⟩
    unfold calculateBufferSize at hsize
    rw [if_neg (by omega), if_neg (by omega)] at hsize
    simp only [Except.ok.injEq] at hsize
    rw [← hl.bytes_toNat h4 h20, ← hsize]

theorem mirrors_relayout {s : DataStream} {a : StreamLog} (h : Mirrors s a) {l : Layout}
    (hl : l.Sized) :
    Mirrors (s.orSame (s.updateParameters l.dataType l.dimensions l.numFramesInBuffer))
      (a.relayout l) := by
  unfold StreamLog.relayout
  split
  · rename_i hacc
    obtain ⟨s', hs'⟩ := (updateParameters_isOk_iff h hl).mpr hacc
    have hlay := hasLayout_updateParameters hl hs'
    obtain ⟨-, -, -, rfl⟩ := DataStream.updateParameters_ok hs'
    rw [hs']
    refine ⟨hlay, rfl, h.allocated, ?_, h.lastId, h.nextRequestId, ?_⟩
    · rw [TailLog.oldest_recut]; exact h.lastId
    · rintro id f ⟨h1, h2⟩ -
      rw [TailLog.oldest_recut] at h1
      exact absurd h2 (Nat.not_lt.mpr h1)
  · rename_i hacc
    cases hu : s.updateParameters l.dataType l.dimensions l.numFramesInBuffer with
    | ok s' => exact absurd ((updateParameters_isOk_iff h hl).mp ⟨s', hu⟩) hacc
    | error e => exact h

/-! ## Submitting a frame -/

/-- The left edge once `RequestNewFrame` has run. -/
theorem firstId_requestNewFrame {s : DataStream} {a : StreamLog} (h : Mirrors s a) (f : LoggedFrame) :
    s.requestNewFrame.2.firstId = (a.log.append f).oldest := by
  rw [TailLog.oldest_append, h.cap, ← h.layout.numFrames, ← h.firstId, ← h.lastId]
  rfl

/-- **Half a submission.** Once the new frame was requested, and whatever part
of it was copied, every id still reported available holds its own frame. -/
theorem holds_of_requested {s : DataStream} {a : StreamLog} (h : Mirrors s a) (data : Mem) {m : Nat}
    (hm : m ≤ s.numBytesPerFrame.toNat) {id : Nat} {f : LoggedFrame}
    (hid : s.requestNewFrame.2.firstId ≤ id ∧ id < s.lastId) (hf : a.log.entries[id]? = some f) :
    (s.requestNewFrame.2.copyInto s.requestNewFrame.1 data m).Holds id f := by
  have hlen : a.log.entries.length < s.requestNewFrame.2.firstId + a.log.cap := by
    rw [firstId_requestNewFrame h f]
    have := (a.log.append f).length_le_oldest_add
    simp only [TailLog.entries_append, List.length_append, List.length_singleton,
      TailLog.cap_append] at this
    omega
  have hvis : a.log.Visible id := by
    refine ⟨?_, by rw [← h.lastId]; exact hid.2⟩
    have h1 : s.firstId ≤ s.requestNewFrame.2.firstId := by
      simp only [DataStream.requestNewFrame]; split <;> omega
    rw [← h.firstId]; omega
  obtain ⟨hb, ht, hd, hdim⟩ := h.holds id f hvis hf
  refine ⟨?_, ht, hd, hdim⟩
  -- `id` and the new id are in one window, so their slots are disjoint
  have hne : id % s.numFramesInBuffer ≠ s.nextRequestId % s.numFramesInBuffer := by
    have hl := h.lastId
    have hn := h.nextRequestId
    rw [h.layout.numFrames, ← h.cap]
    exact slot_ne_of_window hid.1 (by omega) (by omega) (by omega) (by omega)
  have hdisj := slotOffset_disjoint s.numBytesPerFrame.toNat hne
  show (s.buffer.memcpy (s.offset s.nextRequestId) data m).read (s.offset id)
    s.numBytesPerFrame.toNat = f.bytes
  rw [← hb]
  apply Mem.read_memcpy_of_disjoint
  unfold DataStream.offset
  omega

theorem mirrors_submitData {s : DataStream} {a : StreamLog} (h : Mirrors s a) (data : Mem)
    (ts : UInt64) : Mirrors (s.submitData data ts) (a.submitData data ts) := by
  have hid : s.lastId = s.nextRequestId := h.lastId.trans h.nextRequestId.symm
  have hsize : (s.frameAt s.nextRequestId 0).getSizeInBytes.toNat = s.numBytesPerFrame.toNat :=
    h.layout.size_frameAt _ _
  have hlast : (s.submitData data ts).lastId = s.nextRequestId + 1 := by
    simp only [DataStream.submitData, DataStream.submitFrame, DataStream.copyInto,
      DataStream.requestNewFrame, DataStream.frameAt_id, hid]
    rw [if_neg (by omega)]
  have hfirst : (s.submitData data ts).firstId = (a.submitData data ts).log.oldest :=
    firstId_requestNewFrame h (a.frame data ts)
  have hnext : s.nextRequestId = a.log.entries.length := h.nextRequestId
  refine ⟨⟨h.layout.dataType, h.layout.numDimensions, h.layout.dimensions, h.layout.numFrames,
    h.layout.bytesPerFrame, h.layout.pos, h.layout.rank, h.layout.fits⟩, h.cap, h.allocated, hfirst,
    ?_, ?_, ?_⟩
  · rw [hlast, hnext]; simp [StreamLog.submitData]
  · show s.nextRequestId + 1 = _
    rw [hnext]; simp [StreamLog.submitData]
  · rintro id f ⟨h1, h2⟩ hf
    by_cases hnew : id = a.log.entries.length
    · -- the frame just submitted
      subst hnew
      have hfr : f = a.frame data ts := by
        have := a.log.getElem?_append_self (a.frame data ts)
        simp only [StreamLog.submitData] at hf
        rw [this] at hf
        exact (Option.some.inj hf).symm
      subst hfr
      rw [← hnext]
      refine ⟨?_, ?_, h.layout.dataType, h.layout.getDimensions⟩
      · show (s.buffer.memcpy (s.offset s.nextRequestId) data
          (s.frameAt s.nextRequestId 0).getSizeInBytes.toNat).read (s.offset s.nextRequestId)
          s.numBytesPerFrame.toNat = _
        rw [hsize, Mem.read_memcpy_self, h.layout.bytesPerFrame]
        rfl
      · simp [DataStream.submitData, DataStream.submitFrame, DataStream.copyInto,
          DataStream.requestNewFrame, StreamLog.frame]
    · -- an older frame, still in the tail
      have hlt : id < a.log.entries.length := by
        simp only [StreamLog.submitData, TailLog.entries_append, List.length_append,
          List.length_singleton] at h2
        omega
      have hf' : a.log.entries[id]? = some f := by
        rw [← a.log.getElem?_append_left (a.frame data ts) hlt]; exact hf
      have hfirst' : s.requestNewFrame.2.firstId ≤ id := by
        rw [firstId_requestNewFrame h (a.frame data ts)]; exact h1
      have hold := holds_of_requested h data (Nat.le_of_eq hsize) ⟨hfirst', by rw [h.lastId]; exact hlt⟩ hf'
      refine ⟨hold.bytes, ?_, hold.dataType, hold.dimensions⟩
      have hne : id % s.numFramesInBuffer ≠ s.nextRequestId % s.numFramesInBuffer := by
        have hle := (a.submitData data ts).log.length_le_oldest_add
        simp only [StreamLog.submitData, TailLog.entries_append, List.length_append,
          List.length_singleton, TailLog.cap_append] at hle h1
        rw [h.layout.numFrames, ← h.cap]
        exact slot_ne_of_window h1 (by omega) (by omega) (by omega) (by omega)
      rw [← hold.timeStamp]
      simp [DataStream.submitData, DataStream.submitFrame, DataStream.copyInto,
        DataStream.requestNewFrame, Function.update_of_ne hne]

/-! ## Runs -/

theorem mirrors_create {l : Layout} (hl : l.Sized) {s : DataStream}
    (h : DataStream.create l.dataType l.dimensions l.numFramesInBuffer = .ok s) :
    Mirrors s (.created l) := by
  obtain ⟨hlay, hneed, hf, hla, hn⟩ := create_ok hl h
  refine ⟨hlay, rfl, hneed, ?_, hla, hn, ?_⟩
  · rw [hf]; exact (TailLog.oldest_empty _).symm
  · rintro id f ⟨-, h2⟩ -
    exact absurd h2 (Nat.not_lt_zero id)

/-- **One call.** Whatever the call, and whether it is accepted or throws. -/
theorem mirrors_exec {s : DataStream} {a : StreamLog} (h : Mirrors s a) (c : Call)
    (hc : ∀ l, a.requested c = some l → l.Sized) : Mirrors (s.exec c) (a.exec c) := by
  have hd := h.layout.getDimensions
  cases c with
  | submitData data ts => exact mirrors_submitData h data ts
  | updateParameters l => exact mirrors_relayout h (hc l rfl)
  | setDataType type =>
    have := mirrors_relayout h (hc _ rfl)
    simp only [DataStream.exec, DataStream.setDataType, hd, h.layout.numFrames]
    exact this
  | setDimensions dims =>
    have := mirrors_relayout h (hc _ rfl)
    simp only [DataStream.exec, DataStream.setDimensions, h.layout.dataType, h.layout.numFrames]
    exact this
  | setNumFramesInBuffer n =>
    have := mirrors_relayout h (hc _ rfl)
    simp only [DataStream.exec, DataStream.setNumFramesInBuffer, hd, h.layout.dataType]
    exact this

theorem mirrors_run : ∀ (calls : List Call) {s : DataStream} {a : StreamLog}, Mirrors s a →
    a.Sized calls → Mirrors (s.run calls) (a.replay calls)
  | [], _, _, h, _ => h
  | c :: calls, _, _, h, hs => mirrors_run calls (mirrors_exec h c hs.1) hs.2

/-! ## What a reader sees -/

/-- `fr` is a view of `id` under which a reader of `buffer` sees exactly what
was submitted as `f`. -/
structure Shows (fr : DataFrame) (buffer : Mem) (id : Nat) (f : LoggedFrame) : Prop where
  id : fr.id = id
  bytes : fr.bytes buffer = f.bytes
  timeStamp : fr.timeStamp = f.timeStamp
  dataType : fr.dataType = f.dataType
  dimensions : ((List.finRange 4).take fr.numDimensions).map fr.dimensions = f.dimensions

/-- `GetFrame` of an available id whose slot holds its frame. -/
theorem getFrame_shows {s : DataStream} {l : Layout} (h : HasLayout s l) {id : Nat}
    {f : LoggedFrame} (hav : s.isFrameAvailable id = true) (hh : s.Holds id f) (wait : Int) :
    ∃ fr, s.getFrame id wait = .frame fr ∧ Shows fr s.buffer id f := by
  refine ⟨s.frameAt id (s.frameMetadata (id % s.numFramesInBuffer)), ?_, rfl, ?_, hh.timeStamp,
    hh.dataType, hh.dimensions⟩
  · unfold DataStream.getFrame; rw [if_pos hav]
  · unfold DataFrame.bytes
    rw [h.size_frameAt]
    exact hh.bytes

/-- A non-waiting `GetFrame` of any other id throws. -/
theorem getFrame_error {s : DataStream} {id : Nat} (hav : ¬ s.isFrameAvailable id = true)
    {wait : Int} (hw : wait ≤ 0) : ∃ msg, s.getFrame id wait = .error msg := by
  unfold DataStream.getFrame
  rw [if_neg hav]
  split
  · exact ⟨_, rfl⟩
  · rw [if_pos (by omega)]; exact ⟨_, rfl⟩

theorem isFrameAvailable_iff_visible {s : DataStream} {a : StreamLog} (h : Mirrors s a) (id : Nat) :
    s.isFrameAvailable id = true ↔ a.log.Visible id := by
  rw [DataStream.isFrameAvailable_iff, h.firstId, h.lastId]; rfl

/-- What was submitted last is the latest frame. -/
theorem latest_submitData {s : DataStream} {a : StreamLog} (h : Mirrors s a) (data : Mem) (ts : UInt64) :
    let s' := s.submitData data ts
    ∃ id, s'.getLatestFrame = .frame (s'.frameAt id ts) ∧ s'.Holds id (a.frame data ts) := by
  intro s'
  have hm : Mirrors s' (a.submitData data ts) := mirrors_submitData h data ts
  have hlast : s'.lastId = a.log.entries.length + 1 := by
    rw [hm.lastId]; simp [StreamLog.submitData]
  have hvis := a.log.visible_append (a.frame data ts) (by rw [h.cap]; exact h.layout.pos)
  have hold := hm.holds _ _ hvis (a.log.getElem?_append_self _)
  have hlatest := DataStream.getLatestFrame_of_available hlast
    ((isFrameAvailable_iff_visible hm a.log.entries.length).mpr hvis)
  rw [hold.timeStamp] at hlatest
  exact ⟨_, hlatest, hold⟩

theorem latest_bytes {s : DataStream} {a : StreamLog} (h : Mirrors s a) (data : Mem) (ts : UInt64) :
    let s' := s.submitData data ts
    ∃ id, s'.getLatestFrame = .frame (s'.frameAt id ts) ∧
      s'.buffer.read (s'.offset id) a.layout.bytesPerFrame = data.read 0 a.layout.bytesPerFrame := by
  intro s'
  obtain ⟨id, hlatest, hold⟩ := latest_submitData h data ts
  have hsize : s'.numBytesPerFrame.toNat = a.layout.bytesPerFrame := (mirrors_submitData h data ts).layout.bytesPerFrame
  refine ⟨id, hlatest, ?_⟩
  rw [← hsize, hold.bytes, hsize]
  rfl

/-- **Refinement.** After any run of a single writer from `Create`, with `n`
frames submitted in all, `k` of them since the last accepted layout: the ids
available are the `min k N` newest; `GetFrame` of one of them returns what was
submitted under it; of any other id a non-waiting `GetFrame` throws; and
while the next frame is half copied, every id still available reads back its
own frame. -/
theorem stream_refines_log {l : Layout} {s₀ : DataStream} (hl : l.Sized)
    (hc : DataStream.create l.dataType l.dimensions l.numFramesInBuffer = .ok s₀)
    (calls : List Call) (hs : (StreamLog.created l).Sized calls) :
    let s := s₀.run calls
    let a := (StreamLog.created l).replay calls
    let n := a.log.entries.length
    let k := n - a.log.cut
    (∀ id, s.isFrameAvailable id = true ↔ n - min k s.numFramesInBuffer ≤ id ∧ id < n) ∧
    (∀ id, s.isFrameAvailable id = true → ∀ wait, ∃ f fr, a.log.entries[id]? = some f ∧
      s.getFrame id wait = .frame fr ∧ Shows fr s.buffer id f) ∧
    (∀ id, ¬ s.isFrameAvailable id = true → ∀ wait ≤ 0, ∃ msg, s.getFrame id wait = .error msg) ∧
    (s.requestNewFrame.1.id = n ∧ ∀ data m, m ≤ s.requestNewFrame.1.getSizeInBytes.toNat →
      let s' := s.requestNewFrame.2.copyInto s.requestNewFrame.1 data m
      ∀ id, s'.isFrameAvailable id = true → ∀ wait, ∃ f fr, a.log.entries[id]? = some f ∧
        s'.getFrame id wait = .frame fr ∧ Shows fr s'.buffer id f) := by
  intro s a n k
  have h : Mirrors s a := mirrors_run calls (mirrors_create hl hc) hs
  refine ⟨fun id => ?_, fun id hav wait => ?_, fun id hav wait hw => getFrame_error hav hw,
    h.nextRequestId, fun data m hm => ?_⟩
  · rw [isFrameAvailable_iff_visible h, h.layout.numFrames, ← h.cap]; rfl
  · have hv := (isFrameAvailable_iff_visible h id).mp hav
    have hf := List.getElem?_eq_getElem hv.2
    obtain ⟨fr, hfr⟩ := getFrame_shows h.layout hav (h.holds id _ hv hf) wait
    exact ⟨_, fr, hf, hfr⟩
  · intro s' id hav wait
    rw [show s.requestNewFrame.1.getSizeInBytes.toNat = s.numBytesPerFrame.toNat from
      h.layout.size_frameAt _ _] at hm
    have hid : s.requestNewFrame.2.firstId ≤ id ∧ id < s.lastId := DataStream.isFrameAvailable_iff.mp hav
    have hf := List.getElem?_eq_getElem (l := a.log.entries) (by rw [← h.lastId]; exact hid.2)
    have hl' : HasLayout s' a.layout := ⟨h.layout.dataType, h.layout.numDimensions,
      h.layout.dimensions, h.layout.numFrames, h.layout.bytesPerFrame, h.layout.pos, h.layout.rank,
      h.layout.fits⟩
    obtain ⟨fr, hfr⟩ := getFrame_shows hl' hav (holds_of_requested h data hm hid hf) wait
    exact ⟨_, fr, hf, hfr⟩

/-- **In bounds.** In every such run the frame of every id, requested or
available, lies in the memory that `Create` mapped. -/
theorem frame_in_bounds {l : Layout} {s₀ : DataStream} (hl : l.Sized)
    (hc : DataStream.create l.dataType l.dimensions l.numFramesInBuffer = .ok s₀)
    (calls : List Call) (hs : (StreamLog.created l).Sized calls) (id : Nat) :
    let s := s₀.run calls
    sizeofDataStreamHeader.toNat + (s.offset id + s.numBytesPerFrame.toNat) ≤
      s.numBytesInBuffer.toNat :=
  (mirrors_run calls (mirrors_create hl hc) hs).layout.offset_add_le id

/-- Two frames, a rejected resize, a third frame that overwrites the first. -/
def exampleCalls : List Call :=
  [.submitData (fun _ => 1) 10, .submitData (fun _ => 2) 11, .setNumFramesInBuffer 21,
    .submitData (fun _ => 3) 12]

theorem exampleCalls_sized : (StreamLog.created ⟨.uint8, [3], 2⟩).Sized exampleCalls := by
  have hsub : ∀ (a : StreamLog) data ts l, a.requested (.submitData data ts) = some l → l.Sized := by
    intro a data ts l h
    cases h
  refine ⟨hsub _ _ _, hsub _ _ _, ?_, hsub _ _ _, trivial⟩
  intro l h
  cases h
  exact ⟨by decide, fun _ h20 => absurd h20 (by decide)⟩

theorem stream_refines_log_example :
    ∃ s₀, DataStream.create .uint8 [3] 2 = .ok s₀ ∧
      ∀ id, (s₀.run exampleCalls).isFrameAvailable id = true ↔ 1 ≤ id ∧ id < 3 :=
  ⟨_, rfl, fun id => (stream_refines_log (l := ⟨.uint8, [3], 2⟩)
    ⟨by decide, fun _ _ => by decide⟩ rfl exampleCalls exampleCalls_sized).1 id⟩

end Catkit2.L2
