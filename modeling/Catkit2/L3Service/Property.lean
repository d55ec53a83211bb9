import Catkit2.L1Encoding.CastTo
import Catkit2.L2Stream.LogRefinement

/-!
# Properties backed by a stream (catkit_core/Property.cpp)

A property calls a getter and a setter of the service, and with a stream of
one number also submits what it got or set. The fast path of
`ServiceProxy::GetProperty` reads that number from the newest frame, its bytes
interpreted by the type of the stream, and asks the service only when there is
no frame.

`σ` is what the getter and the setter work on. A call that throws leaves the
stream as it was.

* `fastPath_submit`: the fast path reads the bytes that were submitted last.
* `fastPath_of_fits`: it reads the value that the last call returned or set,
  as long as the getter returns the alternative that the stream has.
-/
namespace Catkit2.L3

open Catkit2.L1 Catkit2.L2

variable {σ : Type}

/-! ## The property -/

/-- mirrors catkit_core/Property.h:9-30 -/
structure Property (σ : Type) where
  dataStream : Option DataStream
  getter : Option (σ → Except String Value × σ)
  setter : Option (Value → σ → Except String Unit × σ)

namespace Property

/-- mirrors catkit_core/Property.cpp:3-14 -/
def new (stream : Option DataStream) (getter : Option (σ → Except String Value × σ))
    (setter : Option (Value → σ → Except String Unit × σ)) : Except String (Property σ) :=
  match stream with
  | none => .ok ⟨none, getter, setter⟩
  | some s =>
    if s.dataType ≠ .int64 ∧ s.dataType ≠ .float64 then
      .error "The data stream has a dtype that is not support by a property."
    else .ok ⟨some s, getter, setter⟩

/-- `SubmitData(&arg)`, if there is a stream. -/
def submit (p : Property σ) (value : Value) (storage : Mem) (now : UInt64) : Property σ :=
  { p with dataStream := p.dataStream.map fun s => s.submitData (objectBytes storage value) now }

/-- `storage` is the memory the value is in, `now` the time of the submission.
mirrors catkit_core/Property.cpp:16-33 -/
def get (p : Property σ) (st : σ) (storage : Mem) (now : UInt64) :
    Except String Value × Property σ × σ :=
  match p.getter with
  | none => (.error "Property is not readable.", p, st)
  | some getter =>
    match getter st with
    | (.error e, st) => (.error e, p, st)
    | (.ok value, st) => (.ok value, p.submit value storage now, st)

/-- The value in the type of the stream.
mirrors catkit_core/Property.cpp:48-72 -/
def castTo (dtype : DataType) (value : Value) : Except String Value :=
  match dtype with
  | .int64 =>
    match castToInt64 value with
    | some i => .ok (.int i)
    | none => .error "Could not cast the given value to a int64"
  | .float64 =>
    match castToDouble value with
    | some bits => .ok (.double bits)
    | none => .error "Could not cast the given value to a float64"
  | _ => .error "The datastream has a data type that is not supported by a value."

/-- mirrors catkit_core/Property.cpp:35-83 -/
def set (p : Property σ) (st : σ) (value : Value) (storage : Mem) (now : UInt64) :
    Except String Unit × Property σ × σ :=
  match p.setter with
  | none => (.error "Property is not writable.", p, st)
  | some setter =>
    match p.dataStream with
    | none =>
      let (res, st) := setter value st
      (res, p, st)
    | some s =>
      match castTo s.dataType value with
      | .error e => (.error e, p, st)
      | .ok val =>
        match setter val st with
        | (.error e, st) => (.error e, p, st)
        | (.ok (), st) => (.ok (), p.submit val storage now, st)

end Property

/-- mirrors catkit_core/Service.cpp:374-393 -/
def makeProperty (getter : Option (σ → Except String Value × σ))
    (setter : Option (Value → σ → Except String Unit × σ)) (dtype : DataType) :
    Except String (Property σ) :=
  if dtype ≠ .unknown then
    match DataStream.create dtype [1] 20 with
    | .error e => .error e
    | .ok s => Property.new (some s) getter setter
  else Property.new none getter setter

/-- `((T *) data)[0]`, for the types that have a case.
mirrors catkit_core/ServiceProxy.cpp:57-63 -/
def interpret (dtype : DataType) (word : UInt64) : Option Value :=
  match dtype with
  | .int64 => some (.int word.toInt64)
  | .float64 => some (.double word)
  | _ => none

/-- What `GetProperty` of the proxy returns without a request; `none` where it
goes on to make one.
mirrors catkit_core/ServiceProxy.cpp:53-70 -/
def fastPath (stream : DataStream) : Option Value :=
  match stream.getLatestFrame with
  | .frame frame => interpret frame.dataType (wordLE (stream.buffer.read frame.data 8))
  | _ => none

/-! ## Calls -/

inductive PropertyCall where
  | get (storage : Mem) (now : UInt64)
  | set (value : Value) (storage : Mem) (now : UInt64)

/-- A property of a service; `last` is what the last call that did not throw
returned or was given to set. -/
structure Serving (σ : Type) where
  property : Property σ
  state : σ
  last : Option Value

namespace Serving

def exec (s : Serving σ) : PropertyCall → Serving σ
  | .get storage now =>
    match s.property.get s.state storage now with
    | (.ok value, p, st) => ⟨p, st, some value⟩
    | (.error _, p, st) => ⟨p, st, s.last⟩
  | .set value storage now =>
    match s.property.set s.state value storage now with
    | (.ok (), p, st) => ⟨p, st, some value⟩
    | (.error _, p, st) => ⟨p, st, s.last⟩

def run (s : Serving σ) (calls : List PropertyCall) : Serving σ := calls.foldl exec s

/-- The fast path reads the value of the last call, in the type of the stream. -/
def Shown (s : Serving σ) : Prop :=
  ∀ value, s.last = some value → ∃ stream shown, s.property.dataStream = some stream ∧
    Property.castTo stream.dataType value = .ok shown ∧ fastPath stream = some shown

end Serving

/-- The alternative that a stream of this type stores. -/
def Fits : DataType → Value → Prop
  | .int64, .int _ => True
  | .float64, .double _ => True
  | _, _ => False

namespace Serving

/-- What the getter returns to a `Get` is the alternative of the stream. -/
def GetsFitting (dtype : DataType) (s : Serving σ) : PropertyCall → Prop
  | .get _ _ => ∀ getter value, s.property.getter = some getter → (getter s.state).1 = .ok value →
    Fits dtype value
  | .set _ _ _ => True

/-- Of every `Get` along the run. -/
def AllFit (dtype : DataType) : Serving σ → List PropertyCall → Prop
  | _, [] => True
  | s, c :: calls => s.GetsFitting dtype c ∧ AllFit dtype (s.exec c) calls

end Serving

/-! ## What the fast path reads -/

/-- The layout of a property's stream. -/
def propertyLayout (dtype : DataType) : Layout := ⟨dtype, [1], 20⟩

/-- A type of eight bytes that a property supports. -/
def Supported (dtype : DataType) : Prop := dtype = .int64 ∨ dtype = .float64

theorem Supported.bytes {dtype : DataType} (h : Supported dtype) : (propertyLayout dtype).bytesPerFrame = 8 := by
  rcases h with rfl | rfl <;> decide

theorem Supported.sized {dtype : DataType} (h : Supported dtype) : (propertyLayout dtype).Sized := by
  refine ⟨by show 1 ≤ 20; decide, fun _ _ => ?_⟩
  unfold Layout.bytesNeeded
  rw [h.bytes]
  show sizeofDataStreamHeader.toNat + 8 * 20 < 2 ^ 64
  decide

/-- **A submission.** The fast path reads the first eight bytes of what was
submitted last. -/
theorem fastPath_submit {stream : DataStream} {a : StreamLog} {dtype : DataType} (hd : Supported dtype)
    (h : Mirrors stream a) (hl : a.layout = propertyLayout dtype) (data : Mem) (now : UInt64) :
    fastPath (stream.submitData data now) = interpret dtype (wordLE (data.read 0 8)) := by
  obtain ⟨id, hlatest, hread⟩ := latest_bytes h data now
  have htype : (stream.submitData data now).dataType = dtype := by
    rw [(mirrors_submitData h data now).layout.dataType]
    show a.layout.dataType = dtype
    rw [hl]
    rfl
  rw [hl, hd.bytes] at hread
  simp only [fastPath, hlatest]
  show interpret (stream.submitData data now).dataType (wordLE ((stream.submitData data now).buffer.read
    ((stream.submitData data now).offset id) 8)) = _
  rw [hread, htype]

theorem interpret_of_fits {dtype : DataType} {value : Value} (h : Fits dtype value) (storage : Mem) :
    interpret dtype (wordLE ((objectBytes storage value).read 0 8)) = some value := by
  unfold Fits at h
  split at h
  · simp only [objectBytes, interpret, read_word, Int64.toInt64_toUInt64]
  · simp only [objectBytes, interpret, read_word]
  · exact h.elim

theorem castTo_of_fits {dtype : DataType} {value : Value} (h : Fits dtype value) :
    Property.castTo dtype value = .ok value := by
  unfold Fits at h
  split at h
  · rfl
  · rfl
  · exact h.elim

theorem fits_castTo {dtype : DataType} {value val : Value}
    (h : Property.castTo dtype value = .ok val) : Fits dtype val := by
  unfold Property.castTo at h
  split at h
  · split at h <;> cases h
    trivial
  · split at h <;> cases h
    trivial
  · cases h

/-! ## Runs -/

/-- The stream is of this type, and as its one writer left it. -/
def Backed (dtype : DataType) (p : Property σ) : Prop :=
  ∃ stream a, p.dataStream = some stream ∧ Mirrors stream a ∧ a.layout = propertyLayout dtype

theorem makeProperty_backed {dtype : DataType} (hd : Supported dtype)
    {getter : Option (σ → Except String Value × σ)} {setter : Option (Value → σ → Except String Unit × σ)}
    {p : Property σ} (h : makeProperty getter setter dtype = .ok p) : Backed dtype p := by
  have hknown : dtype ≠ .unknown := by rcases hd with rfl | rfl <;> decide
  unfold makeProperty at h
  rw [if_pos hknown] at h
  split at h
  · cases h
  · rename_i s hs
    unfold Property.new at h
    simp only at h
    split at h
    · cases h
    · cases h
      exact ⟨s, _, rfl, mirrors_create (l := propertyLayout dtype) hd.sized hs, rfl⟩

/-- What a call submits is shown, when it fits. -/
theorem submit_spec {dtype : DataType} (hd : Supported dtype) {p : Property σ} (h : Backed dtype p)
    {value : Value} (hv : Fits dtype value) (storage : Mem) (now : UInt64) :
    Backed dtype (p.submit value storage now) ∧ ∃ stream,
      (p.submit value storage now).dataStream = some stream ∧ stream.dataType = dtype ∧
        fastPath stream = some value := by
  obtain ⟨s, a, hs, hm, hl⟩ := h
  have hm' := mirrors_submitData hm (objectBytes storage value) now
  have hsub : (p.submit value storage now).dataStream =
      some (s.submitData (objectBytes storage value) now) := by
    simp only [Property.submit, hs, Option.map_some]
  refine ⟨⟨_, _, hsub, hm', hl⟩, _, hsub, ?_, ?_⟩
  · rw [hm'.layout.dataType]
    show a.layout.dataType = dtype
    rw [hl]
    rfl
  · rw [fastPath_submit hd hm hl, interpret_of_fits hv]

namespace Serving

/-- **What a call does.** It submits the value it got, or what the value it was
given converts to, or it threw. -/
theorem exec_cases (s : Serving σ) {stream : DataStream} (hs : s.property.dataStream = some stream)
    (c : PropertyCall) :
    ((s.exec c).property = s.property ∧ (s.exec c).last = s.last) ∨
    ∃ value val storage now, (s.exec c).property = s.property.submit val storage now ∧
      (s.exec c).last = some value ∧
      ((∃ getter, c = .get storage now ∧ s.property.getter = some getter ∧
          (getter s.state).1 = .ok value ∧ val = value) ∨
        Property.castTo stream.dataType value = .ok val) := by
  cases c with
  | get storage now =>
    cases hg : s.property.getter with
    | none => exact .inl (by simp only [exec, Property.get, hg, and_self])
    | some getter =>
      cases hr : getter s.state with
      | mk res st =>
        cases res with
        | error e => exact .inl (by simp only [exec, Property.get, hg, hr, and_self])
        | ok value =>
          refine .inr ⟨value, value, storage, now, ?_, ?_, .inl ⟨getter, rfl, rfl, by rw [hr], rfl⟩⟩
          · simp only [exec, Property.get, hg, hr]
          · simp only [exec, Property.get, hg, hr]
  | set value storage now =>
    cases hg : s.property.setter with
    | none => exact .inl (by simp only [exec, Property.set, hg, and_self])
    | some setter =>
      cases hcast : Property.castTo stream.dataType value with
      | error e => exact .inl (by simp only [exec, Property.set, hg, hs, hcast, and_self])
      | ok val =>
        cases hr : setter val s.state with
        | mk res st =>
          cases res with
          | error e => exact .inl (by simp only [exec, Property.set, hg, hs, hcast, hr, and_self])
          | ok u =>
            refine .inr ⟨value, val, storage, now, ?_, ?_, .inr hcast⟩
            · simp only [exec, Property.set, hg, hs, hcast, hr]
            · simp only [exec, Property.set, hg, hs, hcast, hr]

/-- A property with this stream, which shows the last call. -/
structure Sound (dtype : DataType) (s : Serving σ) : Prop where
  backed : Backed dtype s.property
  shown : s.Shown

/-- **Each call.** -/
theorem sound_exec {dtype : DataType} (hd : Supported dtype) {s : Serving σ} (h : Sound dtype s)
    (c : PropertyCall) (hfit : s.GetsFitting dtype c) : Sound dtype (s.exec c) := by
  obtain ⟨stream, a, hs, hm, hl⟩ := h.backed
  have hdt : stream.dataType = dtype := by
    rw [hm.layout.dataType, hl]
    rfl
  obtain ⟨hp, hlast⟩ | ⟨value, val, storage, now, hp, hlast, hval⟩ := s.exec_cases hs c
  · refine ⟨hp ▸ h.backed, ?_⟩
    intro v hv
    rw [hlast] at hv
    rw [hp]
    exact h.shown v hv
  · have hconv : Property.castTo dtype value = .ok val := by
      obtain ⟨getter, rfl, hg, hr, rfl⟩ | hcast := hval
      · exact castTo_of_fits (hfit getter val hg hr)
      · rw [← hdt]; exact hcast
    obtain ⟨hb, stream', hs', hdt', hpath⟩ :=
      submit_spec hd h.backed (fits_castTo hconv) storage now
    refine ⟨hp ▸ hb, ?_⟩
    intro v hv
    rw [hlast] at hv
    cases hv
    exact ⟨stream', val, hp ▸ hs', by rw [hdt']; exact hconv, hpath⟩

theorem sound_run {dtype : DataType} (hd : Supported dtype) : ∀ (calls : List PropertyCall) {s : Serving σ},
    Sound dtype s → AllFit dtype s calls → Sound dtype (s.run calls)
  | [], _, h, _ => h
  | c :: calls, _, h, hfit => sound_run hd calls (sound_exec hd h c hfit.1) hfit.2

end Serving

/-- **The fast path agrees with the request path** in every run in which the
getter returns what the stream stores, an integer or a double. `Set` needs no
such condition: it converts the value first. -/
theorem fastPath_of_fits {dtype : DataType} (hd : Supported dtype)
    {getter : Option (σ → Except String Value × σ)} {setter : Option (Value → σ → Except String Unit × σ)}
    {p : Property σ} (hp : makeProperty getter setter dtype = .ok p) (st : σ) (calls : List PropertyCall)
    (hfit : Serving.AllFit dtype ⟨p, st, none⟩ calls) : (Serving.run ⟨p, st, none⟩ calls).Shown := by
  have h₀ : Serving.Sound dtype (⟨p, st, none⟩ : Serving σ) := by
    refine ⟨makeProperty_backed hd hp, ?_⟩
    intro value hv
    cases hv
  exact (Serving.sound_run hd calls h₀ hfit).shown

/-- The getter and the setter of an attribute. -/
def getAttribute : Option (Value → Except String Value × Value) := some fun v => (.ok v, v)

def setAttribute : Option (Value → Value → Except String Unit × Value) := some fun v _ => (.ok (), v)

/-- `Set(2.5)` on an integer stream, and a `Get`. -/
def setThenGet : List PropertyCall :=
  [.set (.double 0x4004000000000000) (fun _ => 0) 1, .get (fun _ => 0) 2]

theorem fastPath_of_fits_set : ∃ p, makeProperty getAttribute setAttribute .int64 = .ok p ∧
    (Serving.run ⟨p, .int 7, none⟩ setThenGet).Shown := by
  obtain ⟨p, hp⟩ : ∃ p, makeProperty getAttribute setAttribute .int64 = .ok p := ⟨_, rfl⟩
  refine ⟨p, hp, fastPath_of_fits (.inl rfl) hp _ _ ⟨trivial, ?_, trivial⟩⟩
  cases hp
  rintro _ value ⟨rfl⟩ ⟨rfl⟩
  trivial

/-- **The counterexample.** A `Get` of the integer 1 on a stream of doubles
submits the bytes of the integer: the fast path reads the smallest positive
double. -/
theorem fastPath_not_shown : ¬ ∀ (dtype : DataType) (p : Property Value) (st : Value)
    (calls : List PropertyCall), Supported dtype → makeProperty getAttribute setAttribute dtype = .ok p →
      (Serving.run ⟨p, st, none⟩ calls).Shown := by
  intro h
  obtain ⟨p, hp⟩ : ∃ p, makeProperty getAttribute setAttribute .float64 = .ok p := ⟨_, rfl⟩
  cases hp
  obtain ⟨stream, shown, hs, hcast, hpath⟩ :=
    h .float64 _ (.int 1) [.get (fun _ => 0) 1] (.inr rfl) rfl (.int 1) rfl
  cases hs
  cases hcast
  cases hpath

end Catkit2.L3
