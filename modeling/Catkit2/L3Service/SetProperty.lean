import Catkit2.L1Encoding.PyValue
import Catkit2.L3Service.Property

/-!
# Setting a property (catkit_core/Service.cpp)

`HandleSetProperty` reads the value of the request, sets the property, reads
the property again and sends what it read. Everything that fails before the
setter returned leaves the service as it was; what fails afterwards is
answered with an error as well.

The setter and the getter are all or nothing (`AllOrNothing`): one that
raises has not changed what they work on. `makePropertyPython` wraps the
Python functions of a service; an absent one is `None`, which is called like
any other.

* `error_means_unset_iff`: an error reply means that nothing happened exactly
  when the property can be read in the state that its setter leaves.
-/
namespace Catkit2.L3

open Catkit2.L1 Catkit2.L2

variable {σ : Type}

/-! ## The handler -/

/-- mirrors proto/service.proto (`SetPropertyRequest`) -/
structure SetPropertyRequest where
  propertyName : StdString
  propertyValue : Message

/-- The properties of a service, and what their setters and getters work on. -/
structure Registered (σ : Type) where
  properties : StdString → Option (Property σ)
  state : σ

namespace Registered

def update (s : Registered σ) (name : StdString) (property : Property σ) (state : σ) : Registered σ where
  properties := Function.update s.properties name (some property)
  state := state

def stream (s : Registered σ) (name : StdString) : Option DataStream :=
  (s.properties name).bind Property.dataStream

@[simp] theorem update_state (s : Registered σ) (name : StdString) (p : Property σ) (st : σ) :
    (s.update name p st).state = st := rfl

@[simp] theorem update_stream (s : Registered σ) (name : StdString) (p : Property σ) (st : σ) :
    (s.update name p st).stream name = p.dataStream := by
  simp [stream, update]

end Registered

/-- The text of the error for a name that is not registered. -/
def propertyDoesNotExist (name : StdString) : StdString :=
  ⟨(ascii "Property \"").bytes ++ name.bytes ++ (ascii "\" does not exist.").bytes⟩

/-- Where a set value and a value that is read are in memory, and when they
are submitted. -/
structure Submissions where
  setStorage : Mem
  setTime : UInt64
  getStorage : Mem
  getTime : UInt64

/-- mirrors catkit_core/Service.cpp:481-505 -/
def handleSetProperty (s : Registered σ) (request : SetPropertyRequest) (sub : Submissions) :
    Except StdString Message × Registered σ :=
  let name := request.propertyName
  match s.properties name with
  | none => (.error (propertyDoesNotExist name), s)
  | some property =>
    match fromProto request.propertyValue with
    | .error e => (.error (ascii e), s)
    | .ok setValue =>
      match property.set s.state setValue sub.setStorage sub.setTime with
      | (.error e, property, st) => (.error (ascii e), s.update name property st)
      | (.ok (), property, st) =>
        match property.get st sub.getStorage sub.getTime with
        | (.error e, property, st) => (.error (ascii e), s.update name property st)
        | (.ok value, property, st) => (.ok (toProto value), s.update name property st)

/-! ## Functions of a Python service -/

/-- mirrors catkit_bindings/bindings.cpp:401-406 -/
def pyGetter (getter : Option (σ → Except String PyObject × σ)) : σ → Except String Value × σ :=
  fun st =>
    match getter with
    | none => (.error "'NoneType' object is not callable", st)
    | some getter =>
      match getter st with
      | (.error e, st) => (.error e, st)
      | (.ok object, st) =>
        match valueFromPython object with
        | .error _ => (.error "the value could not be converted", st)
        | .ok value => (.ok value, st)

/-- mirrors catkit_bindings/bindings.cpp:407-412 -/
def pySetter (long : Long) (setter : Option (PyObject → σ → Except String Unit × σ)) :
    Value → σ → Except String Unit × σ :=
  fun value st =>
    match toPython long value with
    | .error _ => (.error "the value could not be converted", st)
    | .ok object =>
      match setter with
      | none => (.error "'NoneType' object is not callable", st)
      | some setter => setter object st

/-- mirrors catkit_bindings/bindings.cpp:397-414 -/
def makePropertyPython (long : Long) (getter : Option (σ → Except String PyObject × σ))
    (setter : Option (PyObject → σ → Except String Unit × σ)) (type : StdString) :
    Except String (Property σ) :=
  makeProperty (some (pyGetter getter)) (some (pySetter long setter)) (getDataTypeFromString type)

/-! ## What a request asks for -/

/-- A call that raises leaves what it works on as it was. -/
structure AllOrNothing (p : Property σ) : Prop where
  getter : ∀ getter st e, p.getter = some getter → (getter st).1 = .error e → (getter st).2 = st
  setter : ∀ setter value st e, p.setter = some setter → (setter value st).1 = .error e →
    (setter value st).2 = st

/-- The value that `Property::Set` hands to the setter. -/
def handedToSetter (p : Property σ) (value : Value) : Except String Value :=
  match p.dataStream with
  | none => .ok value
  | some s => Property.castTo s.dataType value

/-- Wherever the setter takes the value of the request, the property has a
getter that does not raise in the state the setter leaves; or there is no
stream, and the setter changed nothing. -/
def ReadableOnceSet (s : Registered σ) (request : SetPropertyRequest) : Prop :=
  ∀ p setter value val, s.properties request.propertyName = some p → p.setter = some setter →
    fromProto request.propertyValue = .ok value → handedToSetter p value = .ok val →
    (setter val s.state).1 = .ok () →
    (∃ getter read, p.getter = some getter ∧ (getter (setter val s.state).2).1 = .ok read) ∨
      p.dataStream = none ∧ (setter val s.state).2 = s.state

/-- The setter had no effect, and the stream of the property has no new frame. -/
def Unset (name : StdString) (s s' : Registered σ) : Prop :=
  s'.state = s.state ∧ s'.stream name = s.stream name

theorem submitData_ne (s : DataStream) (data : Mem) (now : UInt64) : s.submitData data now ≠ s := by
  intro h
  have := congrArg DataStream.nextRequestId h
  have hnext : (s.submitData data now).nextRequestId = s.nextRequestId + 1 := rfl
  omega

/-! ## Set and Get -/

/-- **Set.** It throws and leaves everything as it was, or the setter took the
value and the stream, if there is one, has a new frame. -/
theorem set_cases {p : Property σ} (hp : AllOrNothing p) (st : σ) (value : Value) (storage : Mem)
    (now : UInt64) :
    (∃ e, p.set st value storage now = (.error e, p, st)) ∧
        (∀ setter val, p.setter = some setter → handedToSetter p value = .ok val →
          (setter val st).1 ≠ .ok ()) ∨
      ∃ setter val p', p.setter = some setter ∧ handedToSetter p value = .ok val ∧
        (setter val st).1 = .ok () ∧ p.set st value storage now = (.ok (), p', (setter val st).2) ∧
        p'.getter = p.getter ∧ AllOrNothing p' ∧ (p'.dataStream = p.dataStream ↔ p.dataStream = none) := by
  cases hs : p.setter with
  | none => exact .inl ⟨⟨_, by simp only [Property.set, hs]; rfl⟩, fun _ _ h => by cases h⟩
  | some setter =>
    cases hd : p.dataStream with
    | none =>
      cases hr : setter value st with
      | mk res st' =>
        cases res with
        | error e =>
          have hst : st' = st := by simpa [hr] using hp.setter setter value st e hs (by rw [hr])
          refine .inl ⟨⟨e, by simp only [Property.set, hs, hd, hr, hst]⟩, ?_⟩
          intro setter' val h hval
          cases h
          simp only [handedToSetter, hd, Except.ok.injEq] at hval
          subst hval
          simp [hr]
        | ok u =>
          refine .inr ⟨setter, value, p, rfl, by simp only [handedToSetter, hd], by rw [hr], ?_, rfl, hp, ?_⟩
          · simp only [Property.set, hs, hd, hr]
          · simp [hd]
    | some s =>
      cases hc : Property.castTo s.dataType value with
      | error e =>
        refine .inl ⟨⟨e, by simp only [Property.set, hs, hd, hc]⟩, ?_⟩
        intro setter' val _ hval
        simp [handedToSetter, hd, hc] at hval
      | ok val =>
        cases hr : setter val st with
        | mk res st' =>
          cases res with
          | error e =>
            have hst : st' = st := by simpa [hr] using hp.setter setter val st e hs (by rw [hr])
            refine .inl ⟨⟨e, by simp only [Property.set, hs, hd, hc, hr, hst]⟩, ?_⟩
            intro setter' val' h hval
            cases h
            simp only [handedToSetter, hd, hc, Except.ok.injEq] at hval
            subst hval
            simp [hr]
          | ok u =>
            refine .inr ⟨setter, val, p.submit val storage now, rfl, by simp only [handedToSetter, hd, hc],
              by rw [hr], ?_, rfl, ⟨hp.getter, hp.setter⟩, ?_⟩
            · simp only [Property.set, hs, hd, hc, hr]
            · simp [Property.submit, hd, submitData_ne]

/-- **Get.** It throws and leaves everything as it was, or there is a getter
and it did not raise. -/
theorem get_cases {p : Property σ} (hp : AllOrNothing p) (st : σ) (storage : Mem) (now : UInt64) :
    (∃ e, p.get st storage now = (.error e, p, st)) ∧
        (∀ getter read, p.getter = some getter → (getter st).1 ≠ .ok read) ∨
      ∃ getter read p' st', p.getter = some getter ∧ (getter st).1 = .ok read ∧
        p.get st storage now = (.ok read, p', st') := by
  cases hg : p.getter with
  | none => exact .inl ⟨⟨_, by simp only [Property.get, hg]; rfl⟩, fun _ _ h => by cases h⟩
  | some getter =>
    cases hr : getter st with
    | mk res st' =>
      cases res with
      | error e =>
        have hst : st' = st := by simpa [hr] using hp.getter getter st e hg (by rw [hr])
        refine .inl ⟨⟨e, by simp only [Property.get, hg, hr, hst]⟩, ?_⟩
        intro getter' read h
        cases h
        simp [hr]
      | ok read =>
        exact .inr ⟨getter, read, p.submit read storage now, st', rfl, by rw [hr],
          by simp only [Property.get, hg, hr]⟩

/-! ## Error replies -/

/-- Once the setter has taken the value, it is the getter that counts. -/
theorem readableOnceSet_iff {s : Registered σ} {request : SetPropertyRequest} {p : Property σ}
    {setter : Value → σ → Except String Unit × σ} {value val : Value}
    (hp : s.properties request.propertyName = some p) (hs : p.setter = some setter)
    (hv : fromProto request.propertyValue = .ok value) (hval : handedToSetter p value = .ok val)
    (hok : (setter val s.state).1 = .ok ()) :
    ReadableOnceSet s request ↔
      (∃ getter read, p.getter = some getter ∧ (getter (setter val s.state).2).1 = .ok read) ∨
        p.dataStream = none ∧ (setter val s.state).2 = s.state := by
  constructor
  · intro h
    exact h p setter value val hp hs hv hval hok
  · intro h p₁ setter₁ value₁ val₁ hp₁ hs₁ hv₁ hval₁ _
    cases hp.symm.trans hp₁
    cases hv.symm.trans hv₁
    cases hs.symm.trans hs₁
    cases hval.symm.trans hval₁
    exact h

/-- **Error replies.** An error reply means that nothing happened exactly when
the property can be read in the state that its setter leaves. -/
theorem error_means_unset_iff (s : Registered σ) (request : SetPropertyRequest) (sub : Submissions)
    (h : ∀ p, s.properties request.propertyName = some p → AllOrNothing p) :
    (∀ e, (handleSetProperty s request sub).1 = .error e →
        Unset request.propertyName s (handleSetProperty s request sub).2) ↔
      ReadableOnceSet s request := by
  cases hp : s.properties request.propertyName with
  | none =>
    refine iff_of_true ?_ fun p _ _ _ hp' => ?_
    · intro e _
      simp only [handleSetProperty, hp]
      exact ⟨rfl, rfl⟩
    · rw [hp] at hp'
      cases hp'
  | some p =>
    have hstream : s.stream request.propertyName = p.dataStream := by simp [Registered.stream, hp]
    cases hv : fromProto request.propertyValue with
    | error e =>
      refine iff_of_true ?_ fun _ _ value _ _ _ hv' => ?_
      · intro e' _
        simp only [handleSetProperty, hp, hv]
        exact ⟨rfl, rfl⟩
      · rw [hv] at hv'
        cases hv'
    | ok value =>
      rcases set_cases (h p hp) s.state value sub.setStorage sub.setTime with
        ⟨⟨e, hset⟩, hno⟩ | ⟨setter, val, p', hs, hval, hok, hset, hgetter, hp', hnew⟩
      · refine iff_of_true ?_ fun p₁ setter v₁ val hp₁ hs₁ hv₁ hval₁ hok => ?_
        · intro e' _
          simp only [handleSetProperty, hp, hv, hset]
          exact ⟨rfl, by simp [hstream]⟩
        · cases hp.symm.trans hp₁
          cases hv.symm.trans hv₁
          exact absurd hok (hno setter val hs₁ hval₁)
      · -- the setter took the value: all depends on whether the property can be read
        rw [readableOnceSet_iff hp hs hv hval hok]
        rcases get_cases hp' (setter val s.state).2 sub.getStorage sub.getTime with
          ⟨⟨e, hget⟩, hno⟩ | ⟨getter, read, p'', st'', hg, hr, hget⟩
        · simp only [handleSetProperty, hp, hv, hset, hget, Unset, Registered.update_state,
            Registered.update_stream, hstream, hnew]
          constructor
          · intro hun
            exact .inr (hun _ rfl).symm
          · rintro (⟨getter, read, hg, hr⟩ | hun) e' _
            · exact absurd hr (hno getter read (hgetter.trans hg))
            · exact hun.symm
        · refine iff_of_true ?_ (.inl ⟨getter, read, hgetter.symm.trans hg, hr⟩)
          intro e' he
          simp only [handleSetProperty, hp, hv, hset, hget, reduceCtorEq] at he

/-! ## Python services -/

/-- The conversion comes before the call: the wrapped setter is all or nothing
when the user's is. -/
theorem pySetter_all_or_nothing {long : Long} {setter : Option (PyObject → σ → Except String Unit × σ)}
    (h : ∀ f object st e, setter = some f → (f object st).1 = .error e → (f object st).2 = st)
    (value : Value) (st : σ) (e : String) (he : (pySetter long setter value st).1 = .error e) :
    (pySetter long setter value st).2 = st := by
  cases hobj : toPython long value with
  | error _ => simp only [pySetter, hobj]
  | ok object =>
    cases setter with
    | none => simp only [pySetter, hobj]
    | some f =>
      simp only [pySetter, hobj] at he ⊢
      exact h f object st e rfl he

/-- The conversion comes after the call: the wrapped getter is all or nothing
when the user's leaves alone what it works on. -/
theorem pyGetter_all_or_nothing {getter : Option (σ → Except String PyObject × σ)}
    (h : ∀ f st, getter = some f → (f st).2 = st) (st : σ) : (pyGetter getter st).2 = st := by
  cases getter with
  | none => rfl
  | some f =>
    have hf := h f st rfl
    rcases hr : f st with ⟨_ | object, st'⟩
    · simpa only [pyGetter, hr] using hf
    · rw [hr] at hf
      cases hv : valueFromPython object with
      | error _ => simpa only [pyGetter, hr, hv] using hf
      | ok value => simpa only [pyGetter, hr, hv] using hf

/-- The attribute of an object in Python. -/
def pyGetAttribute (st : Int) : Except String PyObject × Int := (.ok (.int st), st)

def pySetAttribute (object : PyObject) (st : Int) : Except String Unit × Int :=
  match object with
  | .int i => (.ok (), i)
  | _ => (.error "not an integer", st)

/-- `make_property('x', getter, setter)`, and a request that sets it to 7. -/
def attributeProperty (getter : Option (Int → Except String PyObject × Int)) : Property Int :=
  ⟨none, some (pyGetter getter), some (pySetter .long64 (some pySetAttribute))⟩

theorem attributeProperty_made (getter : Option (Int → Except String PyObject × Int)) :
    makePropertyPython .long64 getter (some pySetAttribute) (ascii "") = .ok (attributeProperty getter) := rfl

def withAttribute (getter : Option (Int → Except String PyObject × Int)) : Registered Int :=
  ⟨fun name => if name = ascii "x" then some (attributeProperty getter) else none, 0⟩

def setToSeven : SetPropertyRequest := ⟨ascii "x", .intValue 7⟩

def zeroSubmissions : Submissions := ⟨fun _ => 0, 0, fun _ => 0, 0⟩

theorem attributeProperty_all_or_nothing {getter : Option (Int → Except String PyObject × Int)}
    (h : ∀ f st, getter = some f → (f st).2 = st) : AllOrNothing (attributeProperty getter) := by
  constructor
  · intro f st e hf _
    cases hf
    exact pyGetter_all_or_nothing h st
  · intro f value st e hf he
    cases hf
    refine pySetter_all_or_nothing ?_ value st e he
    intro f object st e hf he
    cases hf
    unfold pySetAttribute at he ⊢
    split <;> simp_all

theorem withAttribute_all_or_nothing {getter : Option (Int → Except String PyObject × Int)}
    (h : ∀ f st, getter = some f → (f st).2 = st) {name : StdString} {p : Property Int}
    (hp : (withAttribute getter).properties name = some p) : AllOrNothing p := by
  simp only [withAttribute] at hp
  split at hp
  · cases hp
    exact attributeProperty_all_or_nothing h
  · cases hp

theorem error_means_unset_iff_attribute :
    (handleSetProperty (withAttribute (some pyGetAttribute)) setToSeven zeroSubmissions).1 =
        .ok (.intValue 7) ∧
    ∀ e, (handleSetProperty (withAttribute (some pyGetAttribute)) setToSeven zeroSubmissions).1 = .error e →
      Unset (ascii "x") (withAttribute (some pyGetAttribute))
        (handleSetProperty (withAttribute (some pyGetAttribute)) setToSeven zeroSubmissions).2 := by
  refine ⟨rfl, (error_means_unset_iff _ setToSeven zeroSubmissions fun p hp => ?_).mpr ?_⟩
  · refine withAttribute_all_or_nothing ?_ hp
    intro f st hf
    cases hf
    rfl
  · intro p setter value val hp hs hv hval _
    cases hp
    cases hs
    cases hv
    cases hval
    exact .inl ⟨_, .int 7, rfl, rfl⟩

/-- **The counterexample.** A property that can only be set: the setter has
set it, and the reply is the error of the missing getter. -/
theorem set_despite_error :
    (handleSetProperty (withAttribute none) setToSeven zeroSubmissions).1 =
        .error (ascii "'NoneType' object is not callable") ∧
      (handleSetProperty (withAttribute none) setToSeven zeroSubmissions).2.state = 7 ∧
      ¬ ∀ (s : Registered Int) (request : SetPropertyRequest) (sub : Submissions),
        (∀ p, s.properties request.propertyName = some p → AllOrNothing p) →
        ∀ e, (handleSetProperty s request sub).1 = .error e →
          Unset request.propertyName s (handleSetProperty s request sub).2 := by
  have hreply : (handleSetProperty (withAttribute none) setToSeven zeroSubmissions).1 =
      .error (ascii "'NoneType' object is not callable") := rfl
  have hstate : (handleSetProperty (withAttribute none) setToSeven zeroSubmissions).2.state = 7 := rfl
  refine ⟨hreply, hstate, fun h => ?_⟩
  have hun := h (withAttribute none) setToSeven zeroSubmissions
    (fun p hp => withAttribute_all_or_nothing (fun f st hf => by cases hf) hp) _ hreply
  have := hun.1
  rw [hstate] at this
  cases this

end Catkit2.L3
