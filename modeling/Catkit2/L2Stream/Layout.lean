import Catkit2.Core.LTS
import Catkit2.L2Stream.LogRefinement
import Catkit2.L2Stream.Synchronization

/-!
# Layouts of a stream (catkit_core/DataStream.cpp, SharedMemory.cpp)

`Create` sizes the shared memory from the layout it is asked for, and every
later layout is compared with that size. Both sizes are computed in `size_t`,
which wraps, and nothing asks for a frame. What is allocated is not always of
that size: on Windows the size is passed on as 32 bits.

* `LaidOut.usable_iff`: an accepted layout is usable exactly when it fits.
* `usable_of_fits`: every state of every run has a usable layout as long as the
  layouts that are accepted have a frame and a size below 2^64, on Windows 2^32.
-/
namespace Catkit2.L2

open Catkit2.L1

namespace Platform

/-- `CreateFileMapping` takes the low 32 bits of the size, and fails for none; `ftruncate`
takes the size as a signed number, and fails for a negative one. The bytes allocated.
mirrors catkit_core/SharedMemory.cpp:25-50 -/
def create (p : Platform) (num_bytes_in_buffer : UInt64) : Except String Nat :=
  match p with
  | windows =>
    if num_bytes_in_buffer.toNat % 2 ^ 32 = 0 then
      .error "Something went wrong while creating shared memory."
    else .ok (num_bytes_in_buffer.toNat % 2 ^ 32)
  | posix =>
    if 2 ^ 63 ≤ num_bytes_in_buffer.toNat then
      .error "Something went wrong while setting the size of shared memory."
    else .ok num_bytes_in_buffer.toNat

/-- Sizes below it are the sizes that are allocated. -/
def limit : Platform → Nat
  | windows => 2 ^ 32
  | posix => 2 ^ 64

theorem limit_le (p : Platform) : p.limit ≤ 2 ^ 64 := by
  cases p <;> decide

theorem create_ok {p : Platform} {n : UInt64} {memory : Nat} (h : p.create n = .ok memory) :
    memory ≤ n.toNat ∧ memory < p.limit ∧ (n.toNat < p.limit → memory = n.toNat) := by
  have hn := n.toNat_lt
  cases p with
  | windows =>
    simp only [create] at h
    split at h <;> cases h
    refine ⟨Nat.mod_le _ _, Nat.mod_lt _ (by decide), Nat.mod_eq_of_lt⟩
  | posix =>
    simp only [create] at h
    split at h <;> cases h
    exact ⟨Nat.le_refl _, hn, fun _ => rfl⟩

end Platform

/-- A stream in the memory allocated for it. -/
structure Mapped where
  memory : Nat
  stream : DataStream

/-- The calls that a handle of a stream offers to a writer. -/
inductive StreamCall where
  | create (l : Layout)
  | call (c : Call)
  | requestNewFrame
  | submitFrame (id : Nat) (timeStamp : UInt64)

namespace DataStream

/-- A call on a stream that exists. -/
def step (s : DataStream) : StreamCall → DataStream
  | .create _ => s
  | .call c => s.exec c
  | .requestNewFrame => s.requestNewFrame.2
  | .submitFrame id timeStamp => s.submitFrame id timeStamp

end DataStream

/-- No slot computation divides by zero, and every slot lies in the memory that
was allocated. The arithmetic is unbounded. -/
structure Mapped.Usable (s : Mapped) : Prop where
  frames : s.stream.numFramesInBuffer ≠ 0
  inside : ∀ id timeStamp, sizeofDataStreamHeader.toNat + s.stream.offset id +
    (s.stream.frameAt id timeStamp).getSizeInBytes.toNat ≤ s.memory

namespace Layout

/-- The bytes of a frame, as `size_t`. -/
def frameSize (l : Layout) : UInt64 := numElements l.dimensions * getSizeOfDataType l.dataType

/-- There is a frame, and the size of the whole does not wrap. -/
def Fits (p : Platform) (l : Layout) : Prop :=
  1 ≤ l.numFramesInBuffer ∧
    sizeofDataStreamHeader.toNat + l.frameSize.toNat * l.numFramesInBuffer < p.limit

instance (p : Platform) (l : Layout) : Decidable (l.Fits p) := by unfold Fits; exact inferInstance

/-- mirrors catkit_core/DataStream.cpp:86-123 -/
def create (p : Platform) (l : Layout) : Except String Mapped :=
  match calculateBufferSize l.dataType l.dimensions l.numFramesInBuffer with
  | .error e => .error e
  | .ok size =>
    match p.create size.numBytesInBuffer, DataStream.create l.dataType l.dimensions l.numFramesInBuffer with
    | .error e, _ => .error e
    | .ok _, .error e => .error e
    | .ok memory, .ok stream => .ok ⟨memory, stream⟩

/-- Ask for a layout: of a stream that is there, or of a new one. -/
def request (p : Platform) (l : Layout) : Option Mapped → Except String Mapped
  | none => l.create p
  | some s => (s.stream.updateParameters l.dataType l.dimensions l.numFramesInBuffer).map (⟨s.memory, ·⟩)

end Layout

/-- The layout that a call asks for. -/
def StreamCall.layout : Option Mapped → StreamCall → Option Layout
  | none, .create l => some l
  | some _, .call (.updateParameters l) => some l
  | some s, .call (.setDataType type) => some ⟨type, s.stream.getDimensions, s.stream.numFramesInBuffer⟩
  | some s, .call (.setDimensions dimensions) =>
    some ⟨s.stream.dataType, dimensions, s.stream.numFramesInBuffer⟩
  | some s, .call (.setNumFramesInBuffer n) => some ⟨s.stream.dataType, s.stream.getDimensions, n⟩
  | _, _ => none

def Mapped.step (s : Mapped) (c : StreamCall) : Mapped := { s with stream := s.stream.step c }

/-- No stream, then a stream. -/
def layoutStep (p : Platform) : Option Mapped → StreamCall → Option (Option Mapped)
  | none, .create l => some (l.request p none).toOption
  | none, _ => none
  | some _, .create _ => none
  | some s, c => some (some (s.step c))

def layouts (p : Platform) : LTS (Option Mapped) StreamCall := .ofFn (· = none) (layoutStep p)

/-- A layout that the call asks for and that is accepted fits. -/
def AcceptedFits (p : Platform) (o : Option Mapped) (c : StreamCall) : Prop :=
  ∀ l s, c.layout o = some l → l.request p o = .ok s → l.Fits p

/-! ## One layout -/

/-- The stream has the layout, and it passed the comparison of the sizes. -/
structure LaidOut (s : DataStream) (l : Layout) : Prop where
  frames : s.numFramesInBuffer = l.numFramesInBuffer
  bytes : s.numBytesPerFrame = l.frameSize
  view : ∀ id timeStamp, (s.frameAt id timeStamp).getSizeInBytes = l.frameSize
  accepted : sizeofDataStreamHeader + l.frameSize * UInt64.ofNat l.numFramesInBuffer ≤ s.numBytesInBuffer

theorem updateParameters_laidOut {s s' : DataStream} {l : Layout}
    (h : s.updateParameters l.dataType l.dimensions l.numFramesInBuffer = .ok s') : LaidOut s' l := by
  obtain ⟨hdims, -, hsize, rfl⟩ := DataStream.updateParameters_ok h
  refine ⟨rfl, rfl, fun id ts => ?_, hsize⟩
  show padDimensions l.dimensions 0 * padDimensions l.dimensions 1 * padDimensions l.dimensions 2 *
    padDimensions l.dimensions 3 * getSizeOfDataType l.dataType = l.frameSize
  rw [numElements_pad l.dimensions hdims, Layout.frameSize]

theorem create_laidOut {l : Layout} {s : DataStream}
    (h : DataStream.create l.dataType l.dimensions l.numFramesInBuffer = .ok s) : LaidOut s l ∧
      s.numBytesInBuffer = sizeofDataStreamHeader + l.frameSize * UInt64.ofNat l.numFramesInBuffer := by
  unfold DataStream.create at h
  split at h
  · cases h
  · rename_i size hsize
    refine ⟨updateParameters_laidOut h, ?_⟩
    obtain ⟨-, -, -, rfl⟩ := DataStream.updateParameters_ok h
    unfold calculateBufferSize at hsize
    split at hsize
    · cases hsize
    · split at hsize <;> cases hsize
      rfl

/-- The number the code compares is the true size, unless the true size wraps. -/
theorem size_toNat {l : Layout}
    (h : sizeofDataStreamHeader.toNat + l.frameSize.toNat * l.numFramesInBuffer < 2 ^ 64) :
    (sizeofDataStreamHeader + l.frameSize * UInt64.ofNat l.numFramesInBuffer).toNat =
      sizeofDataStreamHeader.toNat + l.frameSize.toNat * l.numFramesInBuffer := by
  rw [UInt64.toNat_add, UInt64.toNat_mul, UInt64.toNat_ofNat', Nat.mul_mod_mod, Nat.add_mod_mod,
    Nat.mod_eq_of_lt h]

/-- A layout is usable exactly when it has a frame and lies in the memory. -/
theorem LaidOut.usable_iff_le {s : Mapped} {l : Layout} (h : LaidOut s.stream l) :
    s.Usable ↔ 1 ≤ l.numFramesInBuffer ∧
      sizeofDataStreamHeader.toNat + l.frameSize.toNat * l.numFramesInBuffer ≤ s.memory := by
  have hoff : ∀ id, s.stream.offset id = slotOffset l.numFramesInBuffer l.frameSize.toNat id := by
    intro id
    unfold DataStream.offset
    rw [h.frames, h.bytes]
  constructor
  · intro hu
    have hpos : 0 < l.numFramesInBuffer := Nat.pos_of_ne_zero (h.frames ▸ hu.frames)
    have hlast := hu.inside (l.numFramesInBuffer - 1) 0
    rw [h.view, hoff, slotOffset, Nat.mod_eq_of_lt (by omega)] at hlast
    have hall : (l.numFramesInBuffer - 1) * l.frameSize.toNat + l.frameSize.toNat =
        l.frameSize.toNat * l.numFramesInBuffer := by
      rw [← Nat.succ_mul, Nat.succ_eq_add_one, Nat.sub_add_cancel hpos, Nat.mul_comm]
    exact ⟨hpos, by omega⟩
  · rintro ⟨hpos, hsize⟩
    refine ⟨by rw [h.frames]; omega, fun id ts => ?_⟩
    have hslot := slotOffset_add_le hpos l.frameSize.toNat id
    rw [Nat.mul_comm] at hsize
    rw [h.view, hoff]
    omega

/-- The memory is as large as the header says. -/
structure Mapped.Sound (p : Platform) (s : Mapped) : Prop where
  memory : s.memory = s.stream.numBytesInBuffer.toNat
  limit : s.memory < p.limit

/-- An accepted layout is usable exactly when it fits. -/
theorem LaidOut.usable_iff {p : Platform} {s : Mapped} {l : Layout} (h : LaidOut s.stream l) (hs : Mapped.Sound p s) :
    s.Usable ↔ l.Fits p := by
  rw [h.usable_iff_le, Layout.Fits]
  refine and_congr_right fun _ => ⟨fun hle => Nat.lt_of_le_of_lt hle hs.limit, fun hlt => ?_⟩
  have hacc := UInt64.le_iff_toNat_le.mp h.accepted
  rw [size_toNat (Nat.lt_of_lt_of_le hlt p.limit_le)] at hacc
  rw [hs.memory]
  exact hacc

/-- So is that of a new stream; and where it fits, the memory is as large as the header says. -/
theorem create_usable_iff {p : Platform} {s : Mapped} {l : Layout} (h : l.create p = .ok s) :
    (s.Usable ↔ l.Fits p) ∧ (l.Fits p → Mapped.Sound p s) := by
  unfold Layout.create at h
  split at h
  · cases h
  · rename_i size hsize
    split at h
    · cases h
    · cases h
    · rename_i memory stream hmem hstream
      cases h
      obtain ⟨hlaid, hbytes⟩ := create_laidOut hstream
      have heq : size.numBytesInBuffer = stream.numBytesInBuffer := by
        rw [hbytes]
        unfold calculateBufferSize at hsize
        split at hsize
        · cases hsize
        · split at hsize <;> cases hsize
          rfl
      rw [heq] at hmem
      obtain ⟨hle, hlim, hsame⟩ := Platform.create_ok hmem
      have hsound : l.Fits p → Mapped.Sound p ⟨memory, stream⟩ := by
        intro hfits
        refine ⟨hsame ?_, hlim⟩
        rw [hbytes, size_toNat (Nat.lt_of_lt_of_le hfits.2 p.limit_le)]
        exact hfits.2
      refine ⟨⟨fun hu => ?_, fun hfits => (hlaid.usable_iff (hsound hfits)).mpr hfits⟩, hsound⟩
      obtain ⟨hpos, hin⟩ := hlaid.usable_iff_le.mp hu
      exact ⟨hpos, Nat.lt_of_le_of_lt hin hlim⟩

/-! ## Runs -/

/-- A call that leaves the layout alone. -/
structure SameLayout (s s' : DataStream) : Prop where
  frames : s'.numFramesInBuffer = s.numFramesInBuffer
  bytes : s'.numBytesPerFrame = s.numBytesPerFrame
  type : s'.dataType = s.dataType
  dimensions : s'.dimensions = s.dimensions
  memory : s'.numBytesInBuffer = s.numBytesInBuffer

theorem SameLayout.usable {memory : Nat} {s s' : DataStream} (h : SameLayout s s') (hu : Mapped.Usable ⟨memory, s⟩) :
    Mapped.Usable ⟨memory, s'⟩ := by
  refine ⟨h.frames.trans_ne hu.frames, fun id ts => ?_⟩
  have hoff : s'.offset id = s.offset id := by unfold DataStream.offset; rw [h.frames, h.bytes]
  have hview : (s'.frameAt id ts).getSizeInBytes = (s.frameAt id ts).getSizeInBytes := by
    unfold Tensor.getSizeInBytes Tensor.getNumElements
    simp only [DataStream.frameAt, h.type, h.dimensions]
  show sizeofDataStreamHeader.toNat + s'.offset id + (s'.frameAt id ts).getSizeInBytes.toNat ≤ memory
  rw [hoff, hview]
  exact hu.inside id ts

theorem orSame_cases (s : DataStream) (r : Except String DataStream) :
    s.orSame r = s ∨ r = .ok (s.orSame r) := by
  cases r with
  | error e => exact .inl rfl
  | ok s' => exact .inr rfl

/-- A call on a stream keeps its layout, or asks for one that is accepted. -/
theorem step_layout (p : Platform) (s : Mapped) (c : StreamCall) : SameLayout s.stream (s.step c).stream ∨
    ∃ l, c.layout (some s) = some l ∧ l.request p (some s) = .ok (s.step c) := by
  have hset : ∀ l : Layout, c.layout (some s) = some l →
      s.stream.step c = s.stream.orSame (s.stream.updateParameters l.dataType l.dimensions l.numFramesInBuffer) →
      SameLayout s.stream (s.step c).stream ∨
        ∃ l, c.layout (some s) = some l ∧ l.request p (some s) = .ok (s.step c) := by
    intro l hl hstep
    rcases orSame_cases s.stream (s.stream.updateParameters l.dataType l.dimensions l.numFramesInBuffer) with he | he
    · rw [Mapped.step, hstep, he]
      exact .inl ⟨rfl, rfl, rfl, rfl, rfl⟩
    · refine .inr ⟨l, hl, ?_⟩
      rw [Layout.request, he, Mapped.step, hstep]
      rfl
  cases c with
  | create _ => exact .inl ⟨rfl, rfl, rfl, rfl, rfl⟩
  | requestNewFrame => exact .inl ⟨rfl, rfl, rfl, rfl, rfl⟩
  | submitFrame id ts => exact .inl ⟨rfl, rfl, rfl, rfl, rfl⟩
  | call c =>
    cases c with
    | submitData data ts => exact .inl ⟨rfl, rfl, rfl, rfl, rfl⟩
    | updateParameters l => exact hset l rfl rfl
    | setDataType type => exact hset _ rfl rfl
    | setDimensions dimensions => exact hset _ rfl rfl
    | setNumFramesInBuffer n => exact hset _ rfl rfl

/-- A layout that is accepted later on. -/
theorem request_laidOut {p : Platform} {s s' : Mapped} {l : Layout} (h : l.request p (some s) = .ok s') :
    LaidOut s'.stream l ∧ s'.memory = s.memory ∧ s'.stream.numBytesInBuffer = s.stream.numBytesInBuffer := by
  have h' : (s.stream.updateParameters l.dataType l.dimensions l.numFramesInBuffer).map (⟨s.memory, ·⟩) =
      Except.ok s' := h
  cases hup : s.stream.updateParameters l.dataType l.dimensions l.numFramesInBuffer with
  | error e => rw [hup] at h'; cases h'
  | ok stream =>
    rw [hup] at h'
    cases h'
    refine ⟨updateParameters_laidOut hup, rfl, ?_⟩
    obtain ⟨-, -, -, rfl⟩ := DataStream.updateParameters_ok hup
    rfl

theorem Mapped.Sound.request {p : Platform} {s s' : Mapped} {l : Layout} (hs : Mapped.Sound p s)
    (h : l.request p (some s) = .ok s') : Mapped.Sound p s' := by
  obtain ⟨-, hmem, hbytes⟩ := request_laidOut h
  exact ⟨by rw [hmem, hbytes]; exact hs.memory, by rw [hmem]; exact hs.limit⟩

/-- The stream is usable, and its memory as large as its header says. -/
structure Mapped.Inv (p : Platform) (s : Mapped) : Prop where
  usable : s.Usable
  sound : Mapped.Sound p s

theorem inv_step {p : Platform} {s : Mapped} {c : StreamCall} (h : Mapped.Inv p s) (hfits : AcceptedFits p (some s) c) :
    Mapped.Inv p (s.step c) := by
  rcases step_layout p s c with hsame | ⟨l, hl, hreq⟩
  · exact ⟨hsame.usable h.usable, by rw [hsame.memory]; exact h.sound.memory, h.sound.limit⟩
  · have hs := h.sound.request hreq
    exact ⟨((request_laidOut hreq).1.usable_iff hs).mpr (hfits l _ hl hreq), hs⟩

/-- A stream without frames is accepted too, and on Windows one of 2^32 bytes. -/
example : (Layout.create .posix ⟨.uint8, [1], 0⟩).isOk = true ∧ ¬ Layout.Fits .posix ⟨.uint8, [1], 0⟩ ∧
    (Layout.create .windows ⟨.uint8, [4294967296], 1⟩).isOk = true ∧
    ¬ Layout.Fits .windows ⟨.uint8, [4294967296], 1⟩ := by
  decide

end Catkit2.L2
