import Catkit2.L1Encoding.PyValue
import Catkit2.L2Stream.LogRefinement
import Mathlib.Tactic.Ring

/-!
# One frame, two languages (catkit_core/Tensor.inl, catkit_bindings/bindings.cpp)

`Tensor::AsArray` maps the bytes of a tensor by columns (`Tensor.asArray`).
`ToPython` hands the same bytes out with the strides of an array by rows, and
`submit_data` accepts an array with these strides only. An element is its
bytes here; the conversions of `CopyInto` apply to one element at a time.

* `rowMajor_eq_colMajor_iff`: the indices at which the two orders agree.
* `latest_submit`: the tensor a reader finds after Python has submitted.
* `arrays_agree_iff`: C++ and Python read the same elements exactly where one
  of the two dimensions is at most one.
-/
namespace Catkit2.L2

open Catkit2.L1

/-! ## Frames -/

/-- The frame as a tensor: what a reader of `buffer` finds at `m_Data`. -/
def DataFrame.tensor (f : DataFrame) (buffer : Mem) : Tensor (List UInt8) :=
  ⟨f.dataType, f.numDimensions, f.dimensions, f.bytes buffer⟩

/-! ## Python -/

/-- How far `array[index]` lies from the first element, in bytes. -/
def byteOffset (index : List Nat) (strides : List Int64) : Int :=
  (List.zipWith (fun (i : Nat) (stride : Int64) => (i : Int) * stride.toInt) index strides).sum

/-- `array[index]` -/
def item (b : BufferInfo) (itemSize : Nat) (index : List Nat) : List UInt8 :=
  (b.data.drop (byteOffset index b.strides).toNat).take itemSize

/-- What `py::buffer::request` returns. -/
structure PyBuffer extends BufferInfo where
  itemsize : Int64

/-- The letters of the integer types. -/
def integerFormats : List StdString := ["B", "b", "H", "h", "I", "i", "Q", "q", "L", "l"].map ascii

/-- `std::isupper(format[0])` -/
def isUpper (format : StdString) : Bool :=
  match format.bytes with
  | [] => false
  | c :: _ => decide (65 ≤ c ∧ c ≤ 90)

/-- mirrors catkit_bindings/bindings.cpp:276-322 -/
def getDataTypeFromBufferInfo (b : PyBuffer) : Except StdString DataType :=
  if b.format ∈ integerFormats then
    -- the letters mean different sizes on different platforms
    if b.itemsize = 1 then .ok (if isUpper b.format then .uint8 else .int8)
    else if b.itemsize = 2 then .ok (if isUpper b.format then .uint16 else .int16)
    else if b.itemsize = 4 then .ok (if isUpper b.format then .uint32 else .int32)
    else if b.itemsize = 8 then .ok (if isUpper b.format then .uint64 else .int64)
    else .error (ascii "No integer datatype with this size.")
  else if b.format = ascii "f" then .ok .float32
  else if b.format = ascii "d" then .ok .float64
  else if b.format = ascii "F" ∨ b.format = ascii "Zf" then .ok .complex64
  else if b.format = ascii "D" ∨ b.format = ascii "Zd" then .ok .complex128
  else .error ⟨(ascii "Buffer format ").bytes ++ b.format.bytes ++ (ascii " not recognized.").bytes⟩

def incompatibleDtype (stream input : DataType) : StdString :=
  ⟨(ascii "Incompatible array dtype. Stream: ").bytes ++ (getDataTypeAsString stream).bytes ++
    (ascii ". Input: ").bytes ++ (getDataTypeAsString input).bytes⟩

/-- `DataStream.submit_data`, the method that Python calls.
mirrors catkit_bindings/bindings.cpp:552-590 -/
def DataStream.submitArray (s : DataStream) (b : PyBuffer) (timeStamp : UInt64) :
    Except StdString DataStream := do
  let inputDtype ← getDataTypeFromBufferInfo b
  if s.dataType ≠ inputDtype then .error (incompatibleDtype s.dataType inputDtype)
  else
    let shape := s.getDimensions.map UInt64.toInt64
    if shape ≠ b.shape then .error (ascii "Incompatible array shape.")
    else if cStrides (getSizeOfDataType s.dataType).toInt64 shape ≠ b.strides then
      .error (ascii "Input array must be C continguous.")
    else .ok (s.submitData (Mem.ofList b.data) timeStamp)

/-! ## Two orders of one matrix -/

theorem rowMajor_lt {rows cols i j : Nat} (hi : i < rows) (hj : j < cols) : i * cols + j < rows * cols := by
  have h : (i + 1) * cols ≤ rows * cols := Nat.mul_le_mul_right cols hi
  rw [Nat.add_mul, Nat.one_mul] at h
  omega

theorem colMajor_lt {rows cols i j : Nat} (hi : i < rows) (hj : j < cols) : i + j * rows < rows * cols := by
  have h := rowMajor_lt hj hi
  rw [Nat.mul_comm rows cols]
  omega

/-- The same place by rows and by columns. -/
theorem rowMajor_eq_colMajor_iff {rows cols : Nat} (hrows : 0 < rows) (hcols : 0 < cols) (i j : Nat) :
    i * cols + j = i + j * rows ↔ i * (cols - 1) = j * (rows - 1) := by
  obtain ⟨r, rfl⟩ : ∃ r, rows = r + 1 := ⟨rows - 1, by omega⟩
  obtain ⟨c, rfl⟩ : ∃ c, cols = c + 1 := ⟨cols - 1, by omega⟩
  rw [Nat.mul_succ, Nat.mul_succ, Nat.add_sub_cancel, Nat.add_sub_cancel]
  omega

/-- Both orders agree everywhere when the matrix is one row or one column. -/
theorem forall_rowMajor_eq_colMajor_iff (rows cols : Nat) :
    (∀ i j, i < rows → j < cols → i * cols + j = i + j * rows) ↔ rows ≤ 1 ∨ cols ≤ 1 := by
  constructor
  · intro h
    by_contra hc
    have := h 1 0 (by omega) (by omega)
    omega
  · rintro (hrows | hcols) i j hi hj
    · obtain rfl : i = 0 := by omega
      obtain rfl : rows = 1 := by omega
      omega
    · obtain rfl : j = 0 := by omega
      obtain rfl : cols = 1 := by omega
      omega

/-- Data of which only the item at `k` is not zero. -/
def marked (itemSize n k : Nat) : List UInt8 :=
  (List.range (n * itemSize)).map fun b => if b / itemSize = k then 1 else 0

theorem length_marked (itemSize n k : Nat) : (marked itemSize n k).length = n * itemSize := by
  simp [marked]

theorem head_itemAt_marked {itemSize n k l : Nat} (hs : 0 < itemSize) (hl : l < n) :
    (itemAt (marked itemSize n k) itemSize l)[0]? = some (if l = k then 1 else 0) := by
  have hlt : l * itemSize < n * itemSize := Nat.mul_lt_mul_of_pos_right hl hs
  rw [itemAt, List.getElem?_take_of_lt hs, List.getElem?_drop, Nat.add_zero, marked,
    List.getElem?_map, List.getElem?_range hlt, Option.map_some, Nat.mul_div_cancel l hs]

/-- Two items are the same whatever the data only at the same place. -/
theorem forall_itemAt_eq_iff {itemSize n k l : Nat} (hs : 0 < itemSize) (hk : k < n) (hl : l < n) :
    (∀ data : List UInt8, data.length = n * itemSize → itemAt data itemSize k = itemAt data itemSize l) ↔
      k = l := by
  constructor
  · intro h
    have hmark := congrArg (·[0]?) (h (marked itemSize n k) (length_marked itemSize n k))
    simp only [head_itemAt_marked hs hk, head_itemAt_marked hs hl, if_true] at hmark
    by_contra hne
    rw [if_neg fun e => hne e.symm] at hmark
    exact absurd (Option.some.inj hmark) (by decide)
  · rintro rfl data -
    rfl

/-! ## Known types, and sizes in `ssize_t` -/

theorem toInt_toInt64 {n : UInt64} (h : n.toNat < 2 ^ 63) : n.toInt64.toInt = n.toNat := by
  show n.toBitVec.toInt = n.toBitVec.toNat
  rw [BitVec.toInt_eq_toNat_of_lt]
  have : n.toBitVec.toNat = n.toNat := rfl
  omega

theorem size_pos {type : DataType} (h : type ≠ .unknown) : 0 < (getSizeOfDataType type).toNat := by
  cases type with
  | unknown => exact absurd rfl h
  | _ => decide

theorem getNumpyDataType_of_known (long : Long) {type : DataType} (h : type ≠ .unknown) :
    ∃ format, getNumpyDataType long type = .ok format := by
  cases type with
  | unknown => exact absurd rfl h
  | _ => exact ⟨_, rfl⟩

/-- An array of a matrix with elements, when numpy makes it, is no longer than
`npy_intp` tells. -/
theorem frameBytes_lt_of_numpyFits {type : DataType} {rows cols : UInt64}
    (hfits : numpyFits [rows.toInt64, cols.toInt64] (getSizeOfDataType type) = true)
    (hrows : 0 < rows.toNat) (hcols : 0 < cols.toNat) : frameBytes type [rows, cols] < 2 ^ 63 := by
  have hne : ∀ d : UInt64, 0 < d.toNat → d.toInt64 ≠ 0 := by
    intro d hd h0
    have : d = 0 := by
      rw [← UInt64.toUInt64_toInt64 d, h0]
      rfl
    rw [this] at hd
    exact absurd hd (by decide)
  simp only [numpyFits, Bool.and_eq_true, Nat.ble_eq] at hfits
  have h := hfits.2
  rw [List.filter_cons_of_pos (by simpa using hne rows hrows),
    List.filter_cons_of_pos (by simpa using hne cols hcols), List.filter_nil] at h
  simp only [List.map_cons, List.map_nil, List.prod_cons, List.prod_nil, UInt64.toUInt64_toInt64] at h
  simp only [frameBytes, List.map_cons, List.map_nil, List.prod_cons, List.prod_nil]
  omega

/-- The strides `c_strides` gives put `[i, j]` where an array by rows has it. -/
theorem byteOffset_cStrides {size rows cols : UInt64} (hcols : size.toNat * cols.toNat < 2 ^ 63)
    (hsize : size.toNat < 2 ^ 63) (i j : Nat) :
    byteOffset [i, j] (cStrides size.toInt64 [rows.toInt64, cols.toInt64]) =
      ((i * cols.toNat + j) * size.toNat : Nat) := by
  have hmul : (size * cols).toNat = size.toNat * cols.toNat := by
    rw [UInt64.toNat_mul]
    exact Nat.mod_eq_of_lt (by omega)
  have hstrides : cStrides size.toInt64 [rows.toInt64, cols.toInt64] =
      [(size * cols).toInt64, size.toInt64] := rfl
  rw [hstrides, byteOffset, List.zipWith_cons_cons, List.zipWith_cons_cons, List.zipWith_nil_left,
    List.sum_cons, List.sum_cons, List.sum_nil, toInt_toInt64 (by omega), toInt_toInt64 hsize, hmul]
  push_cast
  ring

/-! ## One tensor -/

/-- A tensor of two dimensions that has its data. -/
structure IsMatrix (type : DataType) (rows cols : UInt64) (t : Tensor (List UInt8)) : Prop where
  dataType : t.dataType = type
  numDimensions : t.numDimensions = 2
  dim0 : t.dimensions 0 = rows
  dim1 : t.dimensions 1 = cols
  length_data : t.data.length = frameBytes type [rows, cols]

/-- `ToPython` makes an array, with at `[i, j]` the element that C++ has at `(i, j)`. -/
def ViewsAgree (long : Long) (t : Tensor (List UInt8)) (i j : Nat) : Prop :=
  ∃ p, toPythonTensor long t = .ok p ∧
    t.asArray.coeff i j = item p (getSizeOfDataType t.dataType).toNat [i, j]

def matrix (type : DataType) (rows cols : UInt64) (data : List UInt8) : Tensor (List UInt8) :=
  ⟨type, 2, padDimensions [rows, cols], data⟩

theorem isMatrix_matrix {type : DataType} {rows cols : UInt64} {data : List UInt8}
    (h : data.length = frameBytes type [rows, cols]) : IsMatrix type rows cols (matrix type rows cols data) :=
  ⟨rfl, rfl, rfl, rfl, h⟩

section Matrix

variable {long : Long} {type : DataType} {rows cols : UInt64} (hknown : type ≠ .unknown)
  (hfits : numpyFits [rows.toInt64, cols.toInt64] (getSizeOfDataType type) = true)

theorem IsMatrix.shape {t : Tensor (List UInt8)} (h : IsMatrix type rows cols t) :
    t.shape = [rows.toInt64, cols.toInt64] := by
  simp only [Tensor.shape, h.numDimensions]
  show [(t.dimensions 0).toInt64, (t.dimensions 1).toInt64] = _
  rw [h.dim0, h.dim1]

include hknown hfits in
/-- numpy takes every matrix of a shape that fits. -/
theorem IsMatrix.toPython (long : Long) {t : Tensor (List UInt8)} (h : IsMatrix type rows cols t) :
    ∃ p, toPythonTensor long t = .ok p ∧ p.data = t.data ∧
      p.strides = cStrides (getSizeOfDataType type).toInt64 [rows.toInt64, cols.toInt64] := by
  obtain ⟨format, hformat⟩ := getNumpyDataType_of_known long hknown
  let p : BufferInfo := ⟨format, t.shape, cStrides (getSizeOfDataType t.dataType).toInt64 t.shape, t.data⟩
  refine ⟨p, toPythonTensor_ok.mpr ⟨?_, ?_, rfl, rfl, rfl⟩, rfl, ?_⟩
  · rw [h.dataType]
    exact hformat
  · rw [h.shape, h.dataType]
    exact hfits
  · show cStrides (getSizeOfDataType t.dataType).toInt64 t.shape = _
    rw [h.shape, h.dataType]

include hfits in
/-- With the strides of `c_strides`, `[i, j]` is the item that is there by rows. -/
theorem item_rowMajor {b : BufferInfo} {i j : Nat} (hi : i < rows.toNat) (hj : j < cols.toNat)
    (hb : b.strides = cStrides (getSizeOfDataType type).toInt64 [rows.toInt64, cols.toInt64]) :
    item b (getSizeOfDataType type).toNat [i, j] =
      itemAt b.data (getSizeOfDataType type).toNat (i * cols.toNat + j) := by
  have hbytes := frameBytes_lt_of_numpyFits hfits (Nat.zero_lt_of_lt hi) (Nat.zero_lt_of_lt hj)
  simp only [frameBytes, List.map_cons, List.map_nil, List.prod_cons, List.prod_nil, Nat.mul_one] at hbytes
  have hcols : (getSizeOfDataType type).toNat * cols.toNat < 2 ^ 63 := by
    have := Nat.mul_le_mul_right (cols.toNat * (getSizeOfDataType type).toNat) (Nat.zero_lt_of_lt hi)
    rw [Nat.succ_mul, Nat.zero_mul, Nat.zero_add, ← Nat.mul_assoc] at this
    rw [Nat.mul_comm]
    omega
  have hsize : (getSizeOfDataType type).toNat < 2 ^ 63 := by
    have := Nat.le_mul_of_pos_right (getSizeOfDataType type).toNat (Nat.zero_lt_of_lt hj)
    omega
  rw [item, itemAt, hb, byteOffset_cStrides hcols hsize, Int.toNat_natCast]

theorem IsMatrix.coeff {t : Tensor (List UInt8)} (h : IsMatrix type rows cols t) (i j : Nat) :
    t.asArray.coeff i j = itemAt t.data (getSizeOfDataType type).toNat (i + j * rows.toNat) := by
  rw [← h.dataType, ← h.dim0]
  rfl

include hknown hfits in
/-- One element: C++ finds it by columns, Python by rows. -/
theorem viewsAgree_iff {t : Tensor (List UInt8)} (h : IsMatrix type rows cols t) {i j : Nat}
    (hi : i < rows.toNat) (hj : j < cols.toNat) :
    ViewsAgree long t i j ↔
      itemAt t.data (getSizeOfDataType type).toNat (i + j * rows.toNat) =
        itemAt t.data (getSizeOfDataType type).toNat (i * cols.toNat + j) := by
  obtain ⟨p, hp, hdata, hstrides⟩ := h.toPython hknown hfits long
  have hitem := item_rowMajor hfits hi hj hstrides
  rw [hdata] at hitem
  unfold ViewsAgree
  rw [h.coeff, h.dataType]
  constructor
  · rintro ⟨q, hq, he⟩
    obtain rfl : p = q := Except.ok.inj (hp.symm.trans hq)
    exact he.trans hitem
  · intro he
    exact ⟨p, hp, he.trans hitem.symm⟩

include hknown hfits in
/-- **One index.** The two languages agree there for all data exactly on the
diagonal of the storage orders. -/
theorem viewsAgree_all_iff {i j : Nat} (hi : i < rows.toNat) (hj : j < cols.toNat) :
    (∀ t, IsMatrix type rows cols t → ViewsAgree long t i j) ↔
      i * (cols.toNat - 1) = j * (rows.toNat - 1) := by
  have hlen : frameBytes type [rows, cols] = rows.toNat * cols.toNat * (getSizeOfDataType type).toNat := by
    simp [frameBytes]
  rw [← rowMajor_eq_colMajor_iff (Nat.zero_lt_of_lt hi) (Nat.zero_lt_of_lt hj), eq_comm,
    ← forall_itemAt_eq_iff (size_pos hknown) (colMajor_lt hi hj) (rowMajor_lt hi hj), ← hlen]
  constructor
  · intro h data hdata
    exact (viewsAgree_iff hknown hfits (isMatrix_matrix hdata) hi hj).mp (h _ (isMatrix_matrix hdata))
  · intro h t ht
    exact (viewsAgree_iff hknown hfits ht hi hj).mpr (h t.data ht.length_data)

/-! ## One frame -/

theorem submitArray_ok {s s' : DataStream} {b : PyBuffer} {ts : UInt64} (h : s.submitArray b ts = .ok s') :
    b.strides = cStrides (getSizeOfDataType s.dataType).toInt64 (s.getDimensions.map UInt64.toInt64) ∧
      s' = s.submitData (Mem.ofList b.data) ts := by
  obtain ⟨inputDtype, -, h⟩ := bind_ok_iff.mp h
  split at h
  · cases h
  · simp only at h
    split at h
    · cases h
    · split at h
      · cases h
      · rename_i hstrides
        cases h
        exact ⟨(not_not.mp hstrides).symm, rfl⟩

/-- The stream is the tail of a log whose newest layout is that of such matrices. -/
structure Carries (type : DataType) (rows cols : UInt64) (s : DataStream) (a : StreamLog) : Prop where
  mirrors : Mirrors s a
  dataType : a.layout.dataType = type
  dimensions : a.layout.dimensions = [rows, cols]

/-- **The latest frame** after an accepted `submit_data` is the array. -/
theorem latest_submit {s s' : DataStream} {a : StreamLog} {b : PyBuffer} {ts : UInt64}
    (hs : Carries type rows cols s a) (hb : b.data.length = frameBytes type [rows, cols])
    (h : s.submitArray b ts = .ok s') :
    b.strides = cStrides (getSizeOfDataType type).toInt64 [rows.toInt64, cols.toInt64] ∧
      ∃ f, s'.getLatestFrame = .frame f ∧ f.tensor s'.buffer = matrix type rows cols b.data := by
  obtain ⟨hstrides, rfl⟩ := submitArray_ok h
  rw [hs.mirrors.layout.dataType, hs.mirrors.layout.getDimensions, hs.dataType, hs.dimensions] at hstrides
  obtain ⟨id, hlatest, hold⟩ := latest_submitData hs.mirrors (Mem.ofList b.data) ts
  have hlay := (mirrors_submitData hs.mirrors (Mem.ofList b.data) ts).layout
  have hbytes : ((s.submitData (Mem.ofList b.data) ts).frameAt id ts).bytes
      (s.submitData (Mem.ofList b.data) ts).buffer = b.data := by
    unfold DataFrame.bytes
    rw [hlay.size_frameAt]
    refine hold.bytes.trans ?_
    have hper : a.layout.bytesPerFrame = b.data.length := by
      rw [hb, Layout.bytesPerFrame, hs.dataType, hs.dimensions]
    exact (congrArg _ hper).trans (Mem.read_ofList b.data)
  refine ⟨hstrides, _, hlatest, ?_⟩
  have htype := hlay.dataType.trans hs.dataType
  have hnum : (s.submitData (Mem.ofList b.data) ts).numDimensions = 2 := by
    rw [hlay.numDimensions]
    exact congrArg List.length hs.dimensions
  have hdims := hlay.dimensions.trans (congrArg padDimensions hs.dimensions)
  unfold DataFrame.tensor matrix
  rw [hbytes]
  show Tensor.mk (s.submitData (Mem.ofList b.data) ts).dataType
    (s.submitData (Mem.ofList b.data) ts).numDimensions
    (s.submitData (Mem.ofList b.data) ts).dimensions b.data = _
  rw [htype, hnum, hdims]

/-- Any array Python submits reads the same at `[i, j]` in Python and at
`(i, j)` in C++ as it did where it was submitted. -/
def FrameReadsSame (long : Long) (type : DataType) (rows cols : UInt64) : Prop :=
  ∀ (s s' : DataStream) (a : StreamLog) (b : PyBuffer) (ts : UInt64),
    Carries type rows cols s a → b.data.length = frameBytes type [rows, cols] →
    s.submitArray b ts = .ok s' →
    ∃ f p, s'.getLatestFrame = .frame f ∧ toPythonTensor long (f.tensor s'.buffer) = .ok p ∧
      ∀ i j, i < rows.toNat → j < cols.toNat →
        item p (getSizeOfDataType type).toNat [i, j] = item b.toBufferInfo (getSizeOfDataType type).toNat [i, j] ∧
        (f.tensor s'.buffer).asArray.coeff i j = item b.toBufferInfo (getSizeOfDataType type).toNat [i, j]

theorem getDataTypeFromBufferInfo_ok (hknown : type ≠ .unknown) {format : StdString}
    (hformat : getNumpyDataType .long64 type = .ok format) (shape strides : List Int64) (data : List UInt8) :
    getDataTypeFromBufferInfo ⟨⟨format, shape, strides, data⟩, (getSizeOfDataType type).toInt64⟩ =
      .ok type := by
  cases type with
  | unknown => exact absurd rfl hknown
  | _ =>
    cases hformat
    rfl

/-- There is a stream for every shape that fits, and it takes every array of that shape. -/
theorem exists_submitArray (hknown : type ≠ .unknown) (hsize : frameBytes type [rows, cols] < 2 ^ 63)
    (data : List UInt8) : ∃ s a b s', Carries type rows cols s a ∧ b.data = data ∧ s.submitArray b 0 = .ok s' := by
  have hneed : (Layout.mk type [rows, cols] 1).bytesNeeded < 2 ^ 64 := by
    have : sizeofDataStreamHeader.toNat = 912 := rfl
    simp only [Layout.bytesNeeded, Layout.bytesPerFrame]
    omega
  have hsized : (Layout.mk type [rows, cols] 1).Sized := ⟨Nat.le_refl 1, fun _ _ => hneed⟩
  obtain ⟨s, hs⟩ : ∃ s, DataStream.create type [rows, cols] 1 = .ok s := by
    obtain ⟨size, hsize⟩ : ∃ size, calculateBufferSize type [rows, cols] 1 = .ok size := ⟨_, rfl⟩
    unfold DataStream.create
    simp only [hsize]
    cases hsize
    exact DataStream.updateParameters_of_le _ _ _ _ (Nat.le_of_ble_eq_true rfl) (by decide) (UInt64.le_refl _)
  have hm := mirrors_create hsized hs
  obtain ⟨format, hformat⟩ := getNumpyDataType_of_known .long64 hknown
  let shape := [rows.toInt64, cols.toInt64]
  let b : PyBuffer := ⟨⟨format, shape, cStrides (getSizeOfDataType type).toInt64 shape, data⟩,
    (getSizeOfDataType type).toInt64⟩
  refine ⟨s, _, b, s.submitData (Mem.ofList data) 0, ⟨hm, rfl, rfl⟩, rfl, ?_⟩
  have hdims : s.getDimensions.map UInt64.toInt64 = shape :=
    congrArg (List.map UInt64.toInt64) hm.layout.getDimensions
  have htype : s.dataType = type := hm.layout.dataType
  unfold DataStream.submitArray
  rw [getDataTypeFromBufferInfo_ok hknown hformat]
  refine bind_ok_iff.mpr ⟨type, rfl, ?_⟩
  rw [htype, if_neg (not_not_intro rfl)]
  simp only [hdims]
  rw [if_neg (not_not_intro rfl), if_neg (not_not_intro rfl)]

/-- Frames and tensors agree on the same shapes. -/
theorem frameReadsSame_iff (hknown : type ≠ .unknown)
    (hfits : numpyFits [rows.toInt64, cols.toInt64] (getSizeOfDataType type) = true) :
    FrameReadsSame long type rows cols ↔
      ∀ t, IsMatrix type rows cols t → ∀ i j, i < rows.toNat → j < cols.toNat → ViewsAgree long t i j := by
  constructor
  · intro h t ht i j hi hj
    have hbytes := frameBytes_lt_of_numpyFits hfits (Nat.zero_lt_of_lt hi) (Nat.zero_lt_of_lt hj)
    obtain ⟨s, a, b, s', hs, hdata, hsub⟩ := exists_submitArray hknown hbytes t.data
    have hb : b.data.length = frameBytes type [rows, cols] := hdata ▸ ht.length_data
    obtain ⟨f, p, hf, hp, hsame⟩ := h s s' a b 0 hs hb hsub
    obtain ⟨-, f', hf', htensor⟩ := latest_submit hs hb hsub
    obtain rfl : f = f' := by
      rw [hf] at hf'
      exact DataStream.Fetch.frame.inj hf'
    rw [htensor, hdata] at hp hsame
    have hview : ViewsAgree long (matrix type rows cols t.data) i j :=
      ⟨p, hp, (hsame i j hi hj).2.trans (hsame i j hi hj).1.symm⟩
    exact (viewsAgree_iff hknown hfits ht hi hj).mpr
      ((viewsAgree_iff hknown hfits (isMatrix_matrix ht.length_data) hi hj).mp hview)
  · intro h s s' a b ts hs hb hsub
    obtain ⟨hstrides, f, hf, htensor⟩ := latest_submit hs hb hsub
    have hm : IsMatrix type rows cols (matrix type rows cols b.data) := isMatrix_matrix hb
    obtain ⟨p, hp, hpdata, hpstrides⟩ := hm.toPython hknown hfits long
    refine ⟨f, p, hf, by rw [htensor]; exact hp, fun i j hi hj => ?_⟩
    have hitem : item p (getSizeOfDataType type).toNat [i, j] =
        item b.toBufferInfo (getSizeOfDataType type).toNat [i, j] := by
      unfold item
      rw [hpdata, hpstrides, hstrides]
      rfl
    obtain ⟨q, hq, hview⟩ := h _ hm i j hi hj
    obtain rfl : p = q := Except.ok.inj (hp.symm.trans hq)
    refine ⟨hitem, ?_⟩
    rw [htensor]
    exact hview.trans hitem

end Matrix

/-- **C++ and Python** read the same elements of every tensor of a shape, and
of every frame that Python submits, exactly when the shape is one row or one
column. Of a larger shape they agree on the diagonal of the two orders. -/
theorem arrays_agree_iff (long : Long) {type : DataType} {rows cols : UInt64} (hknown : type ≠ .unknown)
    (hfits : numpyFits [rows.toInt64, cols.toInt64] (getSizeOfDataType type) = true) :
    ((∀ t, IsMatrix type rows cols t → ∀ i j, i < rows.toNat → j < cols.toNat → ViewsAgree long t i j) ↔
      rows ≤ 1 ∨ cols ≤ 1) ∧
    (FrameReadsSame long type rows cols ↔ rows ≤ 1 ∨ cols ≤ 1) ∧
    ∀ i j, i < rows.toNat → j < cols.toNat →
      ((∀ t, IsMatrix type rows cols t → ViewsAgree long t i j) ↔
        i * (cols.toNat - 1) = j * (rows.toNat - 1)) := by
  have htensors : (∀ t, IsMatrix type rows cols t →
      ∀ i j, i < rows.toNat → j < cols.toNat → ViewsAgree long t i j) ↔ rows ≤ 1 ∨ cols ≤ 1 := by
    rw [UInt64.le_iff_toNat_le, UInt64.le_iff_toNat_le]
    refine Iff.trans ?_ (forall_rowMajor_eq_colMajor_iff rows.toNat cols.toNat)
    constructor
    · intro h i j hi hj
      have hij := (viewsAgree_all_iff hknown hfits hi hj).mp fun t ht => h t ht i j hi hj
      exact (rowMajor_eq_colMajor_iff (Nat.zero_lt_of_lt hi) (Nat.zero_lt_of_lt hj) i j).mpr hij
    · intro h t ht i j hi hj
      have hij := (rowMajor_eq_colMajor_iff (Nat.zero_lt_of_lt hi) (Nat.zero_lt_of_lt hj) i j).mp (h i j hi hj)
      exact (viewsAgree_all_iff hknown hfits hi hj).mpr hij t ht
  exact ⟨htensors, (frameReadsSame_iff hknown hfits).trans htensors,
    fun i j hi hj => viewsAgree_all_iff hknown hfits hi hj⟩

theorem arrays_agree_column : FrameReadsSame .long64 .float64 952 1 :=
  have hfits : numpyFits [UInt64.toInt64 952, UInt64.toInt64 1] (getSizeOfDataType .float64) = true := by decide
  (arrays_agree_iff .long64 (by decide) hfits).2.1.mpr (Or.inr (UInt64.le_refl 1))

/-- `[[1, 2], [3, 4]]` is read as `[[1, 3], [2, 4]]` in C++. -/
theorem square_is_transposed :
    (matrix .uint8 2 2 [1, 2, 3, 4]).asArray.coeff 0 1 = [3] ∧
      (toPythonTensor .long64 (matrix .uint8 2 2 [1, 2, 3, 4])).map (fun p => item p 1 [0, 1]) = .ok [2] ∧
      ¬ ∀ (long : Long) (type : DataType) (rows cols : UInt64), type ≠ .unknown →
        ∀ t, IsMatrix type rows cols t → ∀ i j, i < rows.toNat → j < cols.toNat → ViewsAgree long t i j := by
  refine ⟨rfl, rfl, fun h => ?_⟩
  have hm : IsMatrix .uint8 2 2 (matrix .uint8 2 2 [1, 2, 3, 4]) := isMatrix_matrix rfl
  obtain ⟨p, hp, he⟩ := h .long64 .uint8 2 2 (by decide) _ hm 0 1 (by decide) (by decide)
  cases hp
  exact absurd he (by decide)

end Catkit2.L2
