import Catkit2.Core.Except
import Catkit2.L1Encoding.Types

/-!
# Values in Python (catkit_bindings/bindings.cpp)

`toPython` makes the Python object a value is handed out as, and
`valueFromPython` reads an object back with a chain of `isinstance` tests,
of which the first that holds decides. A Python `str` is a Lean `String`:
one with lone surrogates is left out, `toPython` makes none. Everything that
exposes a buffer (arrays, `bytes`) is its `buffer_info`.

Which letter numpy gives the buffer of an array depends on how wide C's
`long` is: a dtype is made of `long` where the widths agree.

* `valueFromPython_toPython`: exactly the values that survive are read back.
* `getNumpyDataType_reads_back`: the dtypes that their format tells.
-/
namespace Catkit2.L1

/-! ## Python objects -/

/-- A key of a `dict`; `other` is any hashable object that is neither a
string nor bytes. -/
inductive PyKey where
  | str (s : String)
  | bytes (b : List UInt8)
  | other (id : Nat)
  deriving DecidableEq

/-- `py::buffer_info`; `data` is what lies at `ptr`. -/
structure BufferInfo where
  format : StdString
  shape : List Int64
  strides : List Int64
  data : List UInt8

/-- `other` is an object that passes none of the tests. -/
inductive PyObject where
  | none
  | int (i : Int)
  | float (bits : UInt64)
  | str (s : String)
  | bool (b : Bool)
  | list (l : List PyObject)
  | dict (d : List (PyKey × PyObject))
  | buffer (b : BufferInfo)
  | other

inductive PyError where
  | castError
  | runtimeError (what : String)
  | typeError (what : String)
  | valueError
  | unicodeDecodeError
  deriving DecidableEq, Repr

/-- `d[key] = value` on a `dict`, which keeps the order of insertion. -/
def setItem (d : List (PyKey × PyObject)) (key : PyKey) (value : PyObject) : List (PyKey × PyObject) :=
  match d with
  | [] => [(key, value)]
  | e :: d => if e.1 = key then (key, value) :: d else e :: setItem d key value

def StdString.toByteArray (s : StdString) : ByteArray := ⟨s.bytes.toArray⟩

/-- The `str` of a UTF-8 `std::string`. -/
def pyStr (s : StdString) : Except PyError String :=
  match String.fromUTF8? s.toByteArray with
  | some str => .ok str
  | none => .error .unicodeDecodeError

/-- `cast<std::string>` of a `str`. -/
def castStr (s : String) : StdString := ⟨s.toByteArray.data.toList⟩

/-! ## Arrays -/

/-- The width of `long`: 64 bits on Linux and macOS, 32 bits on Windows. -/
inductive Long where
  | long32 | long64
  deriving DecidableEq, Repr

/-- The dtype, told by the format of its buffers.
mirrors catkit_bindings/bindings.cpp:55-86 -/
def getNumpyDataType (long : Long) : DataType → Except PyError StdString
  | .uint8 => .ok (ascii "B")
  | .uint16 => .ok (ascii "H")
  | .uint32 => .ok (if long = .long32 then ascii "L" else ascii "I")
  | .uint64 => .ok (if long = .long64 then ascii "L" else ascii "Q")
  | .int8 => .ok (ascii "b")
  | .int16 => .ok (ascii "h")
  | .int32 => .ok (if long = .long32 then ascii "l" else ascii "i")
  | .int64 => .ok (if long = .long64 then ascii "l" else ascii "q")
  | .float32 => .ok (ascii "f")
  | .float64 => .ok (ascii "d")
  | .complex64 => .ok (ascii "Zf")
  | .complex128 => .ok (ascii "Zd")
  | .unknown => .error (.typeError "Data type is unknown.")

/-- `py::detail::c_strides`. -/
def cStrides (itemSize : Int64) : List Int64 → List Int64
  | [] => []
  | [_] => [itemSize]
  | _ :: d :: shape =>
    match cStrides itemSize (d :: shape) with
    | [] => []
    | s :: strides => s * d :: s :: strides

/-- numpy makes an array when no dimension is negative and the product of
the dimensions that are not zero with the size of an item is an `npy_intp`. -/
def numpyFits (shape : List Int64) (itemSize : UInt64) : Bool :=
  shape.all (fun d => decide (0 ≤ d)) &&
    Nat.ble (((shape.filter (· ≠ 0)).map fun d => d.toUInt64.toNat).prod * itemSize.toNat)
      0x7fffffffffffffff

def Tensor.shape (t : Tensor (List UInt8)) : List Int64 :=
  ((List.finRange 4).take t.numDimensions).map fun i => (t.dimensions i).toInt64

/-- mirrors catkit_bindings/bindings.cpp:110-148 -/
def toPythonTensor (long : Long) (tensor : Tensor (List UInt8)) : Except PyError BufferInfo := do
  let itemSize := getSizeOfDataType tensor.dataType
  let strides := cStrides itemSize.toInt64 tensor.shape
  let format ← getNumpyDataType long tensor.dataType
  if numpyFits tensor.shape itemSize then
    return ⟨format, tensor.shape, strides, tensor.data⟩
  else .error .valueError

/-- mirrors catkit_bindings/bindings.cpp:198-233 -/
def tensorFromPython (buffer : BufferInfo) : Except PyError (Tensor (List UInt8)) :=
  let dtype := getDataTypeFromString buffer.format
  let ndim := buffer.shape.length
  if 4 < ndim then .error (.runtimeError "Input array must have at most four dimensions.")
  else if cStrides (getSizeOfDataType dtype).toInt64 buffer.shape ≠ buffer.strides then
    .error (.runtimeError "Input array must be C continguous.")
  else
    let t : Tensor Unit := ⟨dtype, ndim, padDimensions (buffer.shape.map Int64.toUInt64), ()⟩
    .ok { t with data := buffer.data.take t.getSizeInBytes.toNat }

/-! ## ToPython -/

mutual

/-- mirrors catkit_bindings/bindings.cpp:150-188 -/
def toPython (long : Long) : Value → Except PyError PyObject
  | .noneValue => .ok .none
  | .int i => .ok (.int i.toInt)
  | .double bits => .ok (.float bits)
  | .string s => do return .str (← pyStr s)
  | .bool b => .ok (.bool b)
  | .dict d => do return .dict (← toPythonDict long [] d)
  | .list l => do return .list (← toPythonList long l)
  | .tensor t => do return .buffer (← toPythonTensor long t)

/-- mirrors catkit_bindings/bindings.cpp:90-98 -/
def toPythonList (long : Long) : List Value → Except PyError (List PyObject)
  | [] => .ok []
  | item :: list => do
    let p ← toPython long item
    return p :: (← toPythonList long list)

/-- `pyDict` is what the loop has assigned so far.
mirrors catkit_bindings/bindings.cpp:100-108 -/
def toPythonDict (long : Long) (pyDict : List (PyKey × PyObject)) :
    List (StdString × Value) → Except PyError (List (PyKey × PyObject))
  | [] => .ok pyDict
  | (key, val) :: dict => do
    let p ← toPython long val
    let k ← pyStr key
    toPythonDict long (setItem pyDict (.str k) p) dict

end

/-! ## ValueFromPython -/

namespace PyObject

/-! `isinstance` follows the classes of Python: `bool` is a subclass of `int`. -/

def isNone : PyObject → Bool | .none => true | _ => false
def isBuffer : PyObject → Bool | .buffer _ => true | _ => false
def isInt : PyObject → Bool | .int _ | .bool _ => true | _ => false
def isFloat : PyObject → Bool | .float _ => true | _ => false
def isStr : PyObject → Bool | .str _ => true | _ => false
def isBool : PyObject → Bool | .bool _ => true | _ => false
def isList : PyObject → Bool | .list _ => true | _ => false
def isDict : PyObject → Bool | .dict _ => true | _ => false

end PyObject

inductive Branch where
  | none | buffer | int | float | str | bool | list | dict | otherwise
  deriving DecidableEq, Repr

/-- The chain of tests of `ValueFromPython`.
mirrors catkit_bindings/bindings.cpp:192-273 -/
def branch (p : PyObject) : Branch :=
  if p.isNone then .none
  else if p.isBuffer then .buffer
  else if p.isInt then .int
  else if p.isFloat then .float
  else if p.isStr then .str
  else if p.isBool then .bool
  else if p.isList then .list
  else if p.isDict then .dict
  else .otherwise

/-- `cast<std::int64_t>` -/
def castInt64 : PyObject → Except PyError Int64
  | .int i => if Int64.minValue.toInt ≤ i ∧ i ≤ Int64.maxValue.toInt then .ok (Int64.ofInt i) else .error .castError
  | .bool b => .ok (if b then 1 else 0)
  | _ => .error .castError

/-- `cast<std::string>` of a key, which also takes bytes. -/
def castKey : PyKey → Except PyError StdString
  | .str s => .ok (castStr s)
  | .bytes b => .ok ⟨b⟩
  | .other _ => .error .castError

mutual

/-- mirrors catkit_bindings/bindings.cpp:190-274 -/
def valueFromPython (p : PyObject) : Except PyError Value :=
  match branch p, p with
  | .none, _ => .ok .noneValue
  | .buffer, .buffer b => do return .tensor (← tensorFromPython b)
  | .int, p => do return .int (← castInt64 p)
  | .float, .float bits => .ok (.double bits)
  | .str, .str s => .ok (.string (castStr s))
  | .bool, .bool b => .ok (.bool b)
  | .list, .list l => do return .list (← listFromPython l)
  | .dict, .dict d => do return .dict (← dictFromPython [] d)
  | .otherwise, _ => .ok .noneValue
  | _, _ => .error .castError

/-- mirrors catkit_bindings/bindings.cpp:251-259 -/
def listFromPython : List PyObject → Except PyError (List Value)
  | [] => .ok []
  | item :: list => do
    let v ← valueFromPython item
    return v :: (← listFromPython list)

/-- mirrors catkit_bindings/bindings.cpp:260-271 -/
def dictFromPython (dict : List (StdString × Value)) :
    List (PyKey × PyObject) → Except PyError (List (StdString × Value))
  | [] => .ok dict
  | (key, value) :: items => do
    let k ← castKey key
    let v ← valueFromPython value
    dictFromPython (OrdMap.assign dict k v) items

end

/-! ## Strings -/

def StdString.ValidUTF8 (s : StdString) : Prop := s.toByteArray.IsValidUTF8

theorem StdString.toByteArray_injective : Function.Injective StdString.toByteArray := by
  intro s t h
  simp only [StdString.toByteArray, ByteArray.mk.injEq, Array.mk.injEq] at h
  cases s
  cases t
  exact congrArg StdString.mk h

theorem pyStr_ok {s : StdString} {str : String} : pyStr s = .ok str ↔ str.toByteArray = s.toByteArray := by
  simp only [pyStr, String.fromUTF8?]
  by_cases h : s.toByteArray.IsValidUTF8
  · simp only [dif_pos h, Except.ok.injEq]
    exact ⟨fun e => e ▸ rfl, fun e => String.toByteArray_inj.mp e.symm⟩
  · simp only [dif_neg h, reduceCtorEq, false_iff]
    exact fun e => h (e ▸ str.isValidUTF8)

theorem castStr_of_pyStr {s : StdString} {str : String} (h : pyStr s = .ok str) : castStr str = s := by
  apply StdString.toByteArray_injective
  rw [← pyStr_ok.mp h]
  simp [castStr, StdString.toByteArray]

/-- A string becomes a `str` exactly when it is valid UTF-8. -/
theorem pyStr_isOk {s : StdString} : (∃ str, pyStr s = .ok str) ↔ s.ValidUTF8 := by
  constructor
  · intro ⟨str, h⟩
    rw [StdString.ValidUTF8, ← pyStr_ok.mp h]
    exact str.isValidUTF8
  · intro h
    exact ⟨.ofByteArray s.toByteArray h, pyStr_ok.mpr rfl⟩

/-! ## Tensors -/

/-- A tensor whose dtype is told by its format, and that numpy makes an
array of. -/
def Tensor.Survives (long : Long) (t : Tensor (List UInt8)) : Prop :=
  (getNumpyDataType long t.dataType).map getDataTypeFromString = .ok t.dataType ∧
    numpyFits t.shape (getSizeOfDataType t.dataType)

theorem toPythonTensor_ok {long : Long} {t : Tensor (List UInt8)} {b : BufferInfo} :
    toPythonTensor long t = .ok b ↔
      getNumpyDataType long t.dataType = .ok b.format ∧ numpyFits t.shape (getSizeOfDataType t.dataType) ∧
        b.shape = t.shape ∧ b.strides = cStrides (getSizeOfDataType t.dataType).toInt64 t.shape ∧
        b.data = t.data := by
  obtain ⟨format, shape, strides, data⟩ := b
  simp only [toPythonTensor]
  cases getNumpyDataType long t.dataType with
  | error e => simp [bind, Except.bind]
  | ok f =>
    by_cases h : numpyFits t.shape (getSizeOfDataType t.dataType)
    · simp only [bind, Except.bind, if_pos h, pure, Except.pure, Except.ok.injEq, BufferInfo.mk.injEq]
      constructor
      · intro ⟨hf, hsh, hst, hd⟩
        exact ⟨hf, h, hsh.symm, hst.symm, hd.symm⟩
      · intro ⟨hf, _, hsh, hst, hd⟩
        exact ⟨hf, hsh.symm, hst.symm, hd.symm⟩
    · simp only [bind, Except.bind, if_neg h, reduceCtorEq, false_iff]
      exact fun hall => h hall.2.1

/-- What is read from the buffer has the dtype of its format. -/
theorem tensorFromPython_dataType {b : BufferInfo} {t : Tensor (List UInt8)}
    (h : tensorFromPython b = .ok t) : getDataTypeFromString b.format = t.dataType := by
  simp only [tensorFromPython] at h
  split at h
  · cases h
  · split at h
    · cases h
    · cases h
      rfl

theorem Tensor.WF.length_shape {t : Tensor (List UInt8)} (h : t.WF) : t.shape.length = t.numDimensions := by
  have := h.numDimensions_le
  simp only [Tensor.shape, List.length_map, List.length_take, List.length_finRange]
  omega

/-- The array of a well-formed tensor is read back when its format tells its dtype. -/
theorem tensorFromPython_ok {long : Long} {t : Tensor (List UInt8)} (hw : t.WF) {b : BufferInfo}
    (hb : toPythonTensor long t = .ok b) (hf : getDataTypeFromString b.format = t.dataType) :
    tensorFromPython b = .ok t := by
  obtain ⟨-, -, hshape, hstrides, hdata⟩ := toPythonTensor_ok.mp hb
  have hn : ¬ 4 < t.numDimensions := not_lt.mpr hw.numDimensions_le
  have hpad : padDimensions (t.shape.map Int64.toUInt64) = t.dimensions :=
    padDimensions_take t.dimensions t.numDimensions hw.unused
  simp only [tensorFromPython, hf, hshape, hstrides, hdata, hw.length_shape, if_neg hn, ne_eq,
    not_true_eq_false, if_false, hpad]
  have htake := List.take_of_length_le hw.length_data.le
  exact congrArg Except.ok (congrArg (Tensor.mk t.dataType t.numDimensions t.dimensions) htake)

theorem roundTrips_tensor (long : Long) {t : Tensor (List UInt8)} (hw : t.WF) :
    (∃ b, toPythonTensor long t = .ok b ∧ tensorFromPython b = .ok t) ↔ t.Survives long := by
  constructor
  · intro ⟨b, hb, ht⟩
    obtain ⟨hformat, hfits, -⟩ := toPythonTensor_ok.mp hb
    refine ⟨?_, hfits⟩
    rw [hformat, ← tensorFromPython_dataType ht]
    rfl
  · intro ⟨hf, hfits⟩
    cases hformat : getNumpyDataType long t.dataType with
    | error e =>
      rw [hformat] at hf
      cases hf
    | ok format =>
      rw [hformat] at hf
      let b : BufferInfo :=
        ⟨format, t.shape, cStrides (getSizeOfDataType t.dataType).toInt64 t.shape, t.data⟩
      have hb : toPythonTensor long t = .ok b :=
        toPythonTensor_ok.mpr ⟨hformat, hfits, rfl, rfl, rfl⟩
      exact ⟨_, hb, tensorFromPython_ok hw hb (Except.ok.inj hf)⟩

/-! ## Lists and dictionaries -/

/-- The value is read back from its own Python object. -/
def RoundTrips (long : Long) (v : Value) : Prop :=
  ∃ p, toPython long v = .ok p ∧ valueFromPython p = .ok v

theorem roundTrips_iff (long : Long) (v : Value) :
    (toPython long v >>= valueFromPython) = .ok v ↔ RoundTrips long v := bind_ok_iff

theorem toPythonList_eq (long : Long) (l : List Value) :
    toPythonList long l = l.mapM (toPython long) := by
  induction l with
  | nil => rfl
  | cons v l ih => rw [toPythonList, ih, List.mapM_cons]

theorem listFromPython_eq (l : List PyObject) : listFromPython l = l.mapM valueFromPython := by
  induction l with
  | nil => rfl
  | cons p l ih => rw [listFromPython, ih, List.mapM_cons]

theorem roundTrips_list (long : Long) (l : List Value) :
    (∃ ps, toPythonList long l = .ok ps ∧ listFromPython ps = .ok l) ↔ ∀ v ∈ l, RoundTrips long v := by
  simp only [toPythonList_eq, listFromPython_eq]
  exact mapM_roundTrip

/-- The objects of an entry of a dictionary. -/
def entryToPython (long : Long) (e : StdString × Value) : Except PyError (PyKey × PyObject) := do
  let p ← toPython long e.2
  let k ← pyStr e.1
  return (.str k, p)

def entryFromPython (q : PyKey × PyObject) : Except PyError (StdString × Value) := do
  let k ← castKey q.1
  let v ← valueFromPython q.2
  return (k, v)

theorem toPythonDict_eq (long : Long) (d : List (StdString × Value)) (acc : List (PyKey × PyObject)) :
    toPythonDict long acc d =
      (d.mapM (entryToPython long) >>= fun qs => pure (qs.foldl (fun d q => setItem d q.1 q.2) acc)) := by
  induction d generalizing acc with
  | nil => rfl
  | cons e d ih =>
    obtain ⟨key, val⟩ := e
    simp only [toPythonDict, List.mapM_cons, entryToPython, ih, bind_assoc, pure_bind, List.foldl_cons]

theorem dictFromPython_eq (qs : List (PyKey × PyObject)) (acc : List (StdString × Value)) :
    dictFromPython acc qs =
      (qs.mapM entryFromPython >>= fun d => pure (OrdMap.assignAll acc d)) := by
  induction qs generalizing acc with
  | nil => rfl
  | cons q qs ih =>
    obtain ⟨key, value⟩ := q
    simp only [dictFromPython, List.mapM_cons, entryFromPython, ih, bind_assoc, pure_bind,
      OrdMap.assignAll, List.foldl_cons]

theorem castKey_of_entryToPython {long : Long} {e : StdString × Value} {q : PyKey × PyObject}
    (h : entryToPython long e = .ok q) : castKey q.1 = .ok e.1 := by
  obtain ⟨p, -, h⟩ := bind_ok_iff.mp h
  obtain ⟨k, hk, h⟩ := bind_ok_iff.mp h
  cases h
  exact congrArg Except.ok (castStr_of_pyStr hk)

theorem castKey_of_entryFromPython {q : PyKey × PyObject} {e : StdString × Value}
    (h : entryFromPython q = .ok e) : castKey q.1 = .ok e.1 := by
  obtain ⟨k, hk, h⟩ := bind_ok_iff.mp h
  obtain ⟨v, -, h⟩ := bind_ok_iff.mp h
  cases h
  exact hk

/-- The keys of a list of objects, cast, are those of its entries. -/
theorem castKey_keys {long : Long} {d : List (StdString × Value)} {qs : List (PyKey × PyObject)}
    (h : d.mapM (entryToPython long) = .ok qs) :
    (qs.map Prod.fst).map castKey = (OrdMap.keys d).map .ok := by
  have h := mapM_ok_iff.mp h
  induction h with
  | nil => rfl
  | cons hq _ ih =>
    simp only [List.map_cons, OrdMap.keys_cons, castKey_of_entryToPython hq]
    rw [ih (mapM_ok_iff.mpr ‹_›)]

theorem castKey_keys_back {d : List (StdString × Value)} {qs : List (PyKey × PyObject)}
    (h : qs.mapM entryFromPython = .ok d) :
    (qs.map Prod.fst).map castKey = (OrdMap.keys d).map .ok := by
  have h := mapM_ok_iff.mp h
  induction h with
  | nil => rfl
  | cons hq _ ih =>
    simp only [List.map_cons, OrdMap.keys_cons, castKey_of_entryFromPython hq]
    rw [ih (mapM_ok_iff.mpr ‹_›)]

theorem setItem_new (d : List (PyKey × PyObject)) (key : PyKey) (value : PyObject)
    (h : key ∉ d.map Prod.fst) : setItem d key value = d ++ [(key, value)] := by
  induction d with
  | nil => rfl
  | cons e d ih =>
    simp only [List.map_cons, List.mem_cons, not_or] at h
    rw [setItem, if_neg fun he => h.1 he.symm, ih h.2]
    rfl

/-- Distinct keys are appended one after the other. -/
theorem foldl_setItem (qs acc : List (PyKey × PyObject)) (h : ((acc ++ qs).map Prod.fst).Nodup) :
    qs.foldl (fun d q => setItem d q.1 q.2) acc = acc ++ qs := by
  induction qs generalizing acc with
  | nil => simp
  | cons q qs ih =>
    have hq : q.1 ∉ acc.map Prod.fst := by
      rw [List.map_append, List.map_cons] at h
      exact fun hm => List.disjoint_of_nodup_append h hm List.mem_cons_self
    rw [List.foldl_cons, setItem_new _ _ _ hq, ih _ (by simpa using h), List.append_assoc]
    rfl

/-- A sorted list of entries is the map they make. -/
theorem assignAll_of_sorted {d : List (StdString × Value)} (h : OrdMap.Sorted d) :
    OrdMap.assignAll [] d = d := by
  refine OrdMap.Sorted.ext (OrdMap.assignAll_sorted d [] List.Pairwise.nil) h fun k => ?_
  rw [OrdMap.find_assignAll d [] h.nodup]
  simp [OrdMap.find]

theorem sorted_of_keys {d e : List (StdString × Value)} (h : OrdMap.Sorted d)
    (hk : OrdMap.keys e = OrdMap.keys d) : OrdMap.Sorted e := by
  have hd : (OrdMap.keys d).Pairwise (· < ·) := List.pairwise_map.mpr h
  rw [← hk] at hd
  exact List.pairwise_map.mp hd

theorem roundTrips_dict (long : Long) {d : List (StdString × Value)} (hd : OrdMap.Sorted d) :
    (∃ qs, toPythonDict long [] d = .ok qs ∧ dictFromPython [] qs = .ok d) ↔
      ∀ e ∈ d, e.1.ValidUTF8 ∧ RoundTrips long e.2 := by
  have hentry : ∀ e : StdString × Value,
      (∃ q, entryToPython long e = .ok q ∧ entryFromPython q = .ok e) ↔
        e.1.ValidUTF8 ∧ RoundTrips long e.2 := by
    intro ⟨key, val⟩
    constructor
    · intro ⟨q, hq, he⟩
      obtain ⟨p, hp, hq⟩ := bind_ok_iff.mp hq
      obtain ⟨k, hk, hq⟩ := bind_ok_iff.mp hq
      cases hq
      obtain ⟨k', -, he⟩ := bind_ok_iff.mp he
      obtain ⟨v, hv, he⟩ := bind_ok_iff.mp he
      cases he
      exact ⟨pyStr_isOk.mp ⟨k, hk⟩, p, hp, hv⟩
    · intro ⟨hkey, p, hp, hv⟩
      obtain ⟨k, hk⟩ := pyStr_isOk.mpr hkey
      refine ⟨(.str k, p), ?_, ?_⟩
      · simp only [entryToPython, hp, hk]
        rfl
      · simp only [entryFromPython, castKey, castStr_of_pyStr hk, hv]
        rfl
  rw [← forall₂_congr fun e _ => hentry e, ← mapM_roundTrip]
  simp only [toPythonDict_eq, dictFromPython_eq]
  constructor
  · intro ⟨out, hout, hd'⟩
    obtain ⟨qs, hqs, hout⟩ := bind_ok_iff.mp hout
    have hnd : (qs.map Prod.fst).Nodup := by
      apply List.Nodup.of_map castKey
      rw [castKey_keys hqs]
      exact hd.nodup.map fun _ _ => Except.ok.inj
    rw [foldl_setItem qs [] (by simpa using hnd)] at hout
    cases hout
    obtain ⟨ws, hws, hd'⟩ := bind_ok_iff.mp hd'
    refine ⟨qs, hqs, ?_⟩
    have hkeys : (OrdMap.keys ws).map Except.ok = (OrdMap.keys d).map (Except.ok (ε := PyError)) :=
      (castKey_keys_back hws).symm.trans (castKey_keys hqs)
    have hkeys := List.map_injective_iff.mpr (fun _ _ => Except.ok.inj) hkeys
    have hd' := Except.ok.inj hd'
    rw [assignAll_of_sorted (sorted_of_keys hd hkeys)] at hd'
    exact hd' ▸ hws
  · intro ⟨qs, hqs, hws⟩
    have hnd : (qs.map Prod.fst).Nodup := by
      apply List.Nodup.of_map castKey
      rw [castKey_keys hqs]
      exact hd.nodup.map fun _ _ => Except.ok.inj
    refine ⟨qs, ?_, ?_⟩
    · rw [hqs]
      exact congrArg Except.ok (foldl_setItem qs [] (by simpa using hnd))
    · rw [hws]
      exact congrArg Except.ok (assignAll_of_sorted hd)

/-! ## Values that come back -/

mutual

/-- No `bool` at any depth, strings and keys in UTF-8, and tensors that
survive. -/
def Survives (long : Long) : Value → Prop
  | .bool _ => False
  | .string s => s.ValidUTF8
  | .dict d => SurvivesDict long d
  | .list l => SurvivesList long l
  | .tensor t => t.Survives long
  | _ => True

def SurvivesList (long : Long) : List Value → Prop
  | [] => True
  | v :: l => Survives long v ∧ SurvivesList long l

def SurvivesDict (long : Long) : List (StdString × Value) → Prop
  | [] => True
  | (key, v) :: d => (key.ValidUTF8 ∧ Survives long v) ∧ SurvivesDict long d

end

/-- A value made of a part that is handed out and read back on its own. -/
theorem roundTrips_wrap {α β : Type} {x : Except PyError α} {make : α → PyObject}
    {back : α → Except PyError β} {wrap : β → Value} (hwrap : Function.Injective wrap)
    (hmake : ∀ a, valueFromPython (make a) = back a >>= fun b => pure (wrap b)) (b : β) :
    (∃ p, (x >>= fun a => pure (make a)) = .ok p ∧ valueFromPython p = .ok (wrap b)) ↔
      ∃ a, x = .ok a ∧ back a = .ok b := by
  constructor
  · intro ⟨p, hp, hv⟩
    obtain ⟨a, ha, hp⟩ := bind_ok_iff.mp hp
    cases hp
    rw [hmake] at hv
    obtain ⟨b', hb, hv⟩ := bind_ok_iff.mp hv
    have hb' := hwrap (Except.ok.inj hv)
    exact ⟨a, ha, hb' ▸ hb⟩
  · intro ⟨a, ha, hb⟩
    refine ⟨make a, bind_ok_iff.mpr ⟨a, ha, rfl⟩, ?_⟩
    rw [hmake]
    exact bind_ok_iff.mpr ⟨b, hb, rfl⟩

theorem castInt64_toInt (i : Int64) : castInt64 (.int i.toInt) = .ok i := by
  simp only [castInt64]
  rw [if_pos ⟨Int64.minValue_le_toInt i, Int64.toInt_le i⟩, Int64.ofInt_toInt]

mutual

theorem roundTrips_iff_survives (long : Long) : ∀ v : Value, v.WF → (RoundTrips long v ↔ Survives long v)
  | .noneValue, _ => iff_of_true ⟨.none, rfl, rfl⟩ trivial
  | .int i, _ => by
    refine iff_of_true ⟨.int i.toInt, rfl, ?_⟩ trivial
    show (castInt64 (.int i.toInt) >>= fun i => pure (.int i)) = .ok (Value.int i)
    rw [castInt64_toInt]
    rfl
  | .double bits, _ => iff_of_true ⟨.float bits, rfl, rfl⟩ trivial
  | .bool b, _ => by
    -- `isinstance<py::int_>` comes first, and a `bool` is an `int`
    refine iff_of_false ?_ id
    intro ⟨p, hp, hv⟩
    cases hp
    cases hv
  | .string s, _ => by
    have hback : ∀ str, valueFromPython (.str str) =
        Except.ok (castStr str) >>= fun s => pure (Value.string s) := fun _ => rfl
    refine (roundTrips_wrap (fun _ _ => Value.string.inj) hback s).trans (Iff.trans ?_ pyStr_isOk)
    exact exists_congr fun str => ⟨fun h => h.1, fun h => ⟨h, congrArg Except.ok (castStr_of_pyStr h)⟩⟩
  | .tensor t, hw =>
    (roundTrips_wrap (fun _ _ => Value.tensor.inj) (fun _ => rfl) t).trans (roundTrips_tensor long hw)
  | .list l, hw =>
    (roundTrips_wrap (fun _ _ => Value.list.inj) (fun _ => rfl) l).trans
      ((roundTrips_list long l).trans (forall_survivesList long l hw))
  | .dict d, hw =>
    (roundTrips_wrap (fun _ _ => Value.dict.inj) (fun _ => rfl) d).trans
      ((roundTrips_dict long hw.1).trans (forall_survivesDict long d hw.2))

theorem forall_survivesList (long : Long) : ∀ l : List Value, Value.WFList l →
    ((∀ v ∈ l, RoundTrips long v) ↔ SurvivesList long l)
  | [], _ => by simp [SurvivesList]
  | v :: l, hw => by
    rw [List.forall_mem_cons, SurvivesList, roundTrips_iff_survives long v hw.1,
      forall_survivesList long l hw.2]

theorem forall_survivesDict (long : Long) : ∀ d : List (StdString × Value), Value.WFDict d →
    ((∀ e ∈ d, e.1.ValidUTF8 ∧ RoundTrips long e.2) ↔ SurvivesDict long d)
  | [], _ => by simp [SurvivesDict]
  | (key, v) :: d, hw => by
    rw [List.forall_mem_cons, SurvivesDict, roundTrips_iff_survives long v hw.1,
      forall_survivesDict long d hw.2]

end

/-- Where `long` has 64 bits the format of every known dtype tells it; where
it has 32, that of the dtypes of 32-bit integers does not. -/
theorem getNumpyDataType_reads_back (long : Long) (type : DataType) :
    (getNumpyDataType long type).map getDataTypeFromString = .ok type ↔
      type ≠ .unknown ∧ ¬ (long = .long32 ∧ (type = .int32 ∨ type = .uint32)) := by
  cases long <;> cases type <;> decide

/-- **Python round trip.** `ValueFromPython(ToPython(v)) = v` exactly for the
values that survive. -/
theorem valueFromPython_toPython (long : Long) (v : Value) (hv : v.WF) :
    (toPython long v >>= valueFromPython) = .ok v ↔ Survives long v :=
  (roundTrips_iff long v).trans (roundTrips_iff_survives long v hv)

/-- A `bool` comes back as an `int64`, also inside of a list. -/
theorem bool_comes_back_as_int :
    (toPython .long64 (.bool true) >>= valueFromPython) = .ok (.int 1) ∧
      (toPython .long32 (.list [.bool false]) >>= valueFromPython) = .ok (.list [.int 0]) ∧
      ¬ ∀ (long : Long) (v : Value), v.WF → (toPython long v >>= valueFromPython) = .ok v := by
  refine ⟨rfl, rfl, fun h => ?_⟩
  have := h .long64 (.bool true) trivial
  cases this

theorem nestedExample_survives (long : Long) : Survives long nestedExample := by
  refine ⟨⟨?_, trivial⟩, ⟨?_, ?_, trivial, trivial, ⟨?_, ?_⟩, trivial⟩, trivial⟩
  · unfold StdString.ValidUTF8
    decide
  · unfold StdString.ValidUTF8
    decide
  · show StdString.ValidUTF8 _
    unfold StdString.ValidUTF8
    decide
  · cases long <;> decide
  · decide

theorem valueFromPython_toPython_nested :
    (toPython .long64 nestedExample >>= valueFromPython) = .ok nestedExample :=
  (valueFromPython_toPython .long64 nestedExample nestedExample_wf).mpr
    (nestedExample_survives .long64)

end Catkit2.L1
