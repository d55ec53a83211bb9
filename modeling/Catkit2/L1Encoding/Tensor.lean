import Mathlib.Order.Lattice
import Mathlib.Data.List.Lex
import Mathlib.Algebra.BigOperators.Group.List.Basic

/-!
# Data types and tensors (catkit_core/Tensor.h, catkit_core/Tensor.cpp)

`std::string` is a sequence of bytes (`StdString`), compared byte by byte as
`std::string::operator<` does; `ascii` is a string literal. `size_t` is
`UInt64`, so every size computation wraps as it does in the source.

`Tensor δ` is the class of the same name. `δ` is what `m_Data` designates:
the bytes themselves for a tensor that owns its data, an offset into the
shared buffer for a `DataFrame`. `m_IsOwner` only decides who frees the
bytes and is left out.
-/
namespace Catkit2.L1

/-! ## Strings -/

structure StdString where
  bytes : List UInt8
  deriving DecidableEq, Repr

/-- A string literal of the source. -/
def ascii (s : String) : StdString := ⟨s.toList.map fun c => UInt8.ofNat c.toNat⟩

/-- The byte values, the key `std::string::operator<` compares by. -/
def StdString.key (s : StdString) : List Nat := s.bytes.map UInt8.toNat

theorem StdString.key_injective : Function.Injective StdString.key := by
  rintro ⟨a⟩ ⟨b⟩ h
  have : a = b := List.map_injective_iff.mpr (fun _ _ => UInt8.toNat_inj.mp) h
  rw [this]

instance : LinearOrder StdString := LinearOrder.lift' StdString.key StdString.key_injective

/-! ## Data types -/

/-- mirrors catkit_core/Tensor.h:12-27 -/
inductive DataType where
  | uint8 | uint16 | uint32 | uint64
  | int8 | int16 | int32 | int64
  | float32 | float64 | complex64 | complex128
  | unknown
  deriving DecidableEq, Repr

/-- mirrors catkit_core/Tensor.cpp:7-38 -/
def getDataTypeAsString : DataType → StdString
  | .uint8 => ascii "B"
  | .uint16 => ascii "H"
  | .uint32 => ascii "I"
  | .uint64 => ascii "Q"
  | .int8 => ascii "b"
  | .int16 => ascii "h"
  | .int32 => ascii "i"
  | .int64 => ascii "q"
  | .float32 => ascii "f"
  | .float64 => ascii "d"
  | .complex64 => ascii "F"
  | .complex128 => ascii "D"
  | .unknown => ascii "unknown"

/-- mirrors catkit_core/Tensor.cpp:78-105 -/
def getDataTypeFromString (type : StdString) : DataType :=
  if type = ascii "B" ∨ type = ascii "uint8" then .uint8
  else if type = ascii "H" ∨ type = ascii "uint16" then .uint16
  else if type = ascii "I" ∨ type = ascii "uint32" then .uint32
  else if type = ascii "Q" ∨ type = ascii "L" ∨ type = ascii "uint64" then .uint64
  else if type = ascii "b" ∨ type = ascii "int8" then .int8
  else if type = ascii "h" ∨ type = ascii "int16" then .int16
  else if type = ascii "i" ∨ type = ascii "int32" then .int32
  else if type = ascii "q" ∨ type = ascii "l" ∨ type = ascii "int64" then .int64
  else if type = ascii "f" ∨ type = ascii "float32" then .float32
  else if type = ascii "d" ∨ type = ascii "float64" then .float64
  else if type = ascii "F" ∨ type = ascii "complex64" ∨ type = ascii "Zf" then .complex64
  else if type = ascii "D" ∨ type = ascii "complex128" ∨ type = ascii "Zd" then .complex128
  else .unknown

/-- mirrors catkit_core/Tensor.cpp:107-131 -/
def getSizeOfDataType : DataType → UInt64
  | .uint8 | .int8 => 1
  | .uint16 | .int16 => 2
  | .uint32 | .int32 | .float32 => 4
  | .uint64 | .int64 | .float64 | .complex64 => 8
  | .complex128 => 16
  | .unknown => 0

/-- The short name of every data type, the unknown one included, reads back. -/
theorem getDataTypeFromString_asString (t : DataType) :
    getDataTypeFromString (getDataTypeAsString t) = t := by
  cases t <;> decide

/-! ## Tensors -/

/-- mirrors catkit_core/Tensor.h:44-94 -/
structure Tensor (δ : Type) where
  dataType : DataType
  numDimensions : Nat
  dimensions : Fin 4 → UInt64
  data : δ

namespace Tensor

variable {δ : Type}

/-- mirrors catkit_core/Tensor.cpp:235-238 -/
def getNumElements (t : Tensor δ) : UInt64 :=
  t.dimensions 0 * t.dimensions 1 * t.dimensions 2 * t.dimensions 3

/-- Rows times columns of `AsArray`.
mirrors catkit_core/Tensor.inl:181-188 -/
def arraySize (t : Tensor δ) : Nat := (t.dimensions 0).toNat * (t.dimensions 1).toNat

/-- mirrors catkit_core/Tensor.cpp:240-243 -/
def getSizeInBytes (t : Tensor δ) : UInt64 := t.getNumElements * getSizeOfDataType t.dataType

end Tensor

/-- `Eigen::Map<Eigen::Array<T, Eigen::Dynamic, Eigen::Dynamic>>`. -/
structure ArrayMap where
  data : List UInt8
  rows : Nat
  cols : Nat
  itemSize : Nat

/-- The item that starts `offset` items into `data`. -/
def itemAt (data : List UInt8) (itemSize offset : Nat) : List UInt8 :=
  (data.drop (offset * itemSize)).take itemSize

/-- The element at `(i, j)`: by default an array is stored by columns. -/
def ArrayMap.coeff (m : ArrayMap) (i j : Nat) : List UInt8 := itemAt m.data m.itemSize (i + j * m.rows)

/-- mirrors catkit_core/Tensor.inl:181-188 -/
def Tensor.asArray (t : Tensor (List UInt8)) : ArrayMap where
  data := t.data
  rows := (t.dimensions 0).toNat
  cols := (t.dimensions 1).toNat
  itemSize := (getSizeOfDataType t.dataType).toNat

/-- `std::fill(dims, dims + 4, 1); std::copy(begin, end, dims)`, the padding
both `DataStream::UpdateParameters` and `FromProto` write. -/
def padDimensions (dimensions : List UInt64) : Fin 4 → UInt64 := fun i => dimensions.getD i 1

/-- The `size_t` product of a list of dimensions. -/
def numElements (dimensions : List UInt64) : UInt64 := dimensions.foldl (· * ·) 1

/-- Padding with ones leaves the number of elements alone. -/
theorem numElements_pad (dims : List UInt64) (h : dims.length ≤ 4) :
    padDimensions dims 0 * padDimensions dims 1 * padDimensions dims 2 * padDimensions dims 3 =
      numElements dims := by
  match dims, h with
  | [], _ => rfl
  | [a], _ => show a * 1 * 1 * 1 = 1 * a; simp
  | [a, b], _ => show a * b * 1 * 1 = 1 * a * b; simp
  | [a, b, c], _ => show a * b * c * 1 = 1 * a * b * c; simp
  | [a, b, c, d], _ => show a * b * c * d = 1 * a * b * c * d; simp

/-- The first `numDimensions` entries of the padded array are the list back. -/
theorem take_padDimensions (dims : List UInt64) (h : dims.length ≤ 4) :
    ((List.finRange 4).take dims.length).map (padDimensions dims) = dims := by
  match dims, h with
  | [], _ => rfl
  | [_], _ => rfl
  | [_, _], _ => rfl
  | [_, _, _], _ => rfl
  | [_, _, _, _], _ => rfl

theorem foldl_mul_toNat (dims : List UInt64) (n : UInt64) :
    (dims.foldl (· * ·) n).toNat = n.toNat * (dims.map UInt64.toNat).prod % 2 ^ 64 := by
  induction dims generalizing n with
  | nil => simp [Nat.mod_eq_of_lt n.toNat_lt]
  | cons d dims ih =>
    rw [List.foldl_cons, ih, UInt64.toNat_mul, List.map_cons, List.prod_cons, ← Nat.mul_assoc]
    rw [Nat.mod_mul_mod]

theorem numElements_toNat (dims : List UInt64) :
    (numElements dims).toNat = (dims.map UInt64.toNat).prod % 2 ^ 64 := by
  rw [numElements, foldl_mul_toNat]; simp

/-- The number of bytes of one frame, in unbounded arithmetic. -/
def frameBytes (type : DataType) (dimensions : List UInt64) : Nat :=
  (dimensions.map UInt64.toNat).prod * (getSizeOfDataType type).toNat

/-- The wrapped frame size is the true one whenever the true one fits. -/
theorem numElements_mul_size_toNat (type : DataType) (dims : List UInt64)
    (h : frameBytes type dims < 2 ^ 64) :
    (numElements dims * getSizeOfDataType type).toNat = frameBytes type dims := by
  rw [UInt64.toNat_mul, numElements_toNat]
  unfold frameBytes at h ⊢
  rw [Nat.mod_mul_mod, Nat.mod_eq_of_lt h]

end Catkit2.L1
