import Catkit2.Core.Except
import Catkit2.L1Encoding.Types
import Mathlib.Logic.Function.Basic

/-!
# Messages of a peer (catkit_core/Tensor.cpp, catkit_core/Types.cpp)

`fromProto` of `Types.lean` says what is read from a message. Here every
access to an array is a step of its own: the writes to `size_t dimensions[4]`
on the stack of `FromProto(Tensor)`, and the reads of `data().c_str()` by the
copy of `Tensor::Set`. Nothing in the source compares the number of
dimensions with four, or the number of bytes to copy with the length of
`data`, and nothing can be said of a call after its first access outside of
an array.

`newChar sizes n` is what `new char[n]` throws, if it does, when the call has
already allocated tensors of the sizes `sizes`. The entries of a dictionary come in
the order the receiver's map iterates them.

* `defined_iff`: a call makes no access outside of its arrays exactly when
  every tensor it meets before it throws fits (`MeetsFitting`).
* `fromProto_refines`: such a call returns what `Types.lean` reads.
-/
namespace Catkit2.L1.PeerMessage

/-! ## Accesses -/

inductive Access where
  | writeDimension (i : Nat)
  | readData (i : Nat)
  deriving DecidableEq, Repr

/-- How a call ends that does not return. -/
inductive Fault where
  | thrown (what : String)
  | undefined (access : Access)

/-- `dimensions[i] = x` on `size_t dimensions[4]`. -/
def writeDimension (dimensions : Fin 4 → UInt64) (i : Nat) (x : UInt64) :
    Except Fault (Fin 4 → UInt64) :=
  if h : i < 4 then .ok (Function.update dimensions ⟨i, h⟩ x)
  else .error (.undefined (.writeDimension i))

def readData (data : List UInt8) (i : Nat) : Except Fault UInt8 :=
  match data[i]? with
  | some b => .ok b
  | none => .error (.undefined (.readData i))

/-- The loop that writes the entries of `l` from index `i` on. -/
def writeDimensions (dimensions : Fin 4 → UInt64) (i : Nat) :
    List UInt64 → Except Fault (Fin 4 → UInt64)
  | [] => .ok dimensions
  | x :: l => do writeDimensions (← writeDimension dimensions i x) (i + 1) l

/-- `std::copy` of `n` bytes from index `i` on. -/
def copyData (data : List UInt8) (i : Nat) : Nat → Except Fault (List UInt8)
  | 0 => .ok []
  | n + 1 => do
    let b ← readData data i
    return b :: (← copyData data (i + 1) n)

/-! ## FromProto -/

section

variable (newChar : List UInt64 → UInt64 → Option String) (stack : Fin 4 → UInt64)

/-- mirrors catkit_core/Tensor.cpp:225-233 -/
def setTensor (sizes : List UInt64) (dataType : DataType) (numDimensions : Nat)
    (dimensions : Fin 4 → UInt64) (data : List UInt8) :
    Except Fault (Tensor (List UInt8) × List UInt64) := do
  let t : Tensor Unit := ⟨dataType, numDimensions, dimensions, ()⟩
  match newChar sizes t.getSizeInBytes with
  | some what => .error (.thrown what)
  | none =>
    let copied ← copyData data 0 t.getSizeInBytes.toNat
    return ({ t with data := copied }, t.getSizeInBytes :: sizes)

/-- `stack` is what the uninitialised array holds. The second loop writes a
one to every index from `num_dimensions` up to 3.
mirrors catkit_core/Tensor.cpp:255-267 -/
def fromProtoTensor (sizes : List UInt64) (p : TensorMessage) :
    Except Fault (Tensor (List UInt8) × List UInt64) := do
  let n := p.dimensions.length
  let dimensions ← writeDimensions stack 0 (p.dimensions.map Int64.toUInt64)
  let dimensions ← writeDimensions dimensions n (List.replicate (4 - n) 1)
  setTensor newChar sizes (getDataTypeFromString p.dtype) n dimensions p.data

mutual

/-- mirrors catkit_core/Types.cpp:66-110 -/
def fromProto (sizes : List UInt64) : Message → Except Fault (Value × List UInt64)
  | .noneValue => .ok (.noneValue, sizes)
  | .intValue i => .ok (.int i, sizes)
  | .doubleValue bits => .ok (.double bits, sizes)
  | .stringValue s => .ok (.string s, sizes)
  | .boolValue b => .ok (.bool b, sizes)
  | .dictValue items => do
    let (dict, sizes) ← fromProtoDict sizes [] items
    return (.dict dict, sizes)
  | .listValue items => do
    let (list, sizes) ← fromProtoList sizes items
    return (.list list, sizes)
  | .tensorValue p => do
    let (tensor, sizes) ← fromProtoTensor newChar stack sizes p
    return (.tensor tensor, sizes)
  | .notSet => .error (.thrown "Unknown value type.")

/-- mirrors catkit_core/Types.cpp:112-122 -/
def fromProtoList (sizes : List UInt64) :
    List Message → Except Fault (List Value × List UInt64)
  | [] => .ok ([], sizes)
  | item :: items => do
    let (val, sizes) ← fromProto sizes item
    let (list, sizes) ← fromProtoList sizes items
    return (val :: list, sizes)

/-- mirrors catkit_core/Types.cpp:124-134 -/
def fromProtoDict (sizes : List UInt64) (dict : List (StdString × Value)) :
    List (StdString × Message) → Except Fault (List (StdString × Value) × List UInt64)
  | [] => .ok (dict, sizes)
  | (key, value) :: items => do
    let (val, sizes) ← fromProto sizes value
    fromProtoDict sizes (OrdMap.insert dict key val) items

end

end

/-! ## What a message has to satisfy -/

/-- The size `Tensor::Set` computes for the tensor of a message with at most
four dimensions. -/
def sizeInBytes (p : TensorMessage) : UInt64 :=
  numElements (p.dimensions.map Int64.toUInt64) * getSizeOfDataType (getDataTypeFromString p.dtype)

mutual

/-- The tensors and the values with no alternative set (`none`), in the order
in which a message is read. -/
def leaves : Message → List (Option TensorMessage)
  | .dictValue items => leavesDict items
  | .listValue items => leavesList items
  | .tensorValue p => [some p]
  | .notSet => [none]
  | _ => []

def leavesList : List Message → List (Option TensorMessage)
  | [] => []
  | item :: items => leaves item ++ leavesList items

def leavesDict : List (StdString × Message) → List (Option TensorMessage)
  | [] => []
  | (_, value) :: items => leaves value ++ leavesDict items

end

/-- Up to the first value with no alternative set or the first allocation
that fails, every tensor has at most four dimensions and as many bytes as
are copied from it. -/
def MeetsFitting (newChar : List UInt64 → UInt64 → Option String) :
    List UInt64 → List (Option TensorMessage) → Prop
  | _, [] => True
  | _, none :: _ => True
  | sizes, some p :: l =>
    p.dimensions.length ≤ 4 ∧
      (newChar sizes (sizeInBytes p) = none →
        (sizeInBytes p).toNat ≤ p.data.length ∧ MeetsFitting newChar (sizeInBytes p :: sizes) l)

/-! ## One tensor -/

theorem writeDimensions_ok (l : List UInt64) (dimensions : Fin 4 → UInt64) (i : Nat)
    (h : i + l.length ≤ 4) :
    writeDimensions dimensions i l =
      .ok fun j => if i ≤ j then l.getD (j - i) (dimensions j) else dimensions j := by
  induction l generalizing dimensions i with
  | nil => simp [writeDimensions]
  | cons x l ih =>
    rw [List.length_cons] at h
    have hi : i < 4 := by omega
    simp only [writeDimensions, writeDimension, dif_pos hi, bind, Except.bind]
    rw [ih _ _ (by omega)]
    congr 1
    funext j
    by_cases hj : i + 1 ≤ j
    · rw [if_pos hj, if_pos (by omega), show (j : Nat) - i = j - (i + 1) + 1 by omega,
        List.getD_cons_succ, Function.update_of_ne]
      intro he
      have := congrArg Fin.val he
      simp only at this
      omega
    · rw [if_neg hj]
      by_cases he : (j : Nat) = i
      · subst he
        simp
      · rw [if_neg (by omega), Function.update_of_ne]
        exact fun h => he (congrArg Fin.val h)

/-- The write past the last of the four entries is reached. -/
theorem writeDimensions_undefined (l : List UInt64) (dimensions : Fin 4 → UInt64) (i : Nat)
    (hi : i ≤ 4) (h : 4 < i + l.length) :
    writeDimensions dimensions i l = .error (.undefined (.writeDimension 4)) := by
  induction l generalizing dimensions i with
  | nil =>
    simp only [List.length_nil] at h
    omega
  | cons x l ih =>
    rw [List.length_cons] at h
    by_cases h4 : i < 4
    · simp only [writeDimensions, writeDimension, dif_pos h4, bind, Except.bind]
      exact ih _ _ (by omega) (by omega)
    · have : i = 4 := by omega
      subst this
      rfl

theorem copyData_ok (data : List UInt8) (n : Nat) (i : Nat) (h : i + n ≤ data.length) :
    copyData data i n = .ok ((data.drop i).take n) := by
  induction n generalizing i with
  | zero => simp [copyData]
  | succ n ih =>
    have hi : i < data.length := by omega
    simp only [copyData, readData, List.getElem?_eq_getElem hi, bind, Except.bind]
    rw [ih _ (by omega), List.drop_eq_getElem_cons hi]
    rfl

/-- The read past the last byte of the field is reached. -/
theorem copyData_undefined (data : List UInt8) (n : Nat) (i : Nat) (hi : i ≤ data.length)
    (h : data.length < i + n) :
    copyData data i n = .error (.undefined (.readData data.length)) := by
  induction n generalizing i with
  | zero => omega
  | succ n ih =>
    by_cases hlt : i < data.length
    · simp only [copyData, readData, List.getElem?_eq_getElem hlt, bind, Except.bind]
      rw [ih _ (by omega) (by omega)]
    · have : i = data.length := by omega
      subst this
      simp [copyData, readData, bind, Except.bind]

section

variable (newChar : List UInt64 → UInt64 → Option String) (stack : Fin 4 → UInt64)

/-- The two loops write the padded dimensions, whatever the array held. -/
theorem writeDimensions_pad (l : List UInt64) (h : l.length ≤ 4) :
    (writeDimensions stack 0 l >>= fun d => writeDimensions d l.length (List.replicate (4 - l.length) 1)) =
      .ok (padDimensions l) := by
  rw [writeDimensions_ok l stack 0 (by omega)]
  show writeDimensions _ l.length (List.replicate (4 - l.length) 1) = _
  rw [writeDimensions_ok _ _ _ (by rw [List.length_replicate]; omega)]
  congr 1
  funext j
  by_cases hj : l.length ≤ j
  · have hlt : (j : Nat) - l.length < 4 - l.length := by omega
    simp [hj, padDimensions, List.getD_eq_getElem?_getD, hlt]
  · have hlt : (j : Nat) < l.length := by omega
    simp [hj, padDimensions, List.getD_eq_getElem?_getD, List.getElem?_eq_getElem hlt]

theorem fromProtoTensor_eq (sizes : List UInt64) (p : TensorMessage) (h : p.dimensions.length ≤ 4) :
    fromProtoTensor newChar stack sizes p =
      setTensor newChar sizes (getDataTypeFromString p.dtype) p.dimensions.length
        (padDimensions (p.dimensions.map Int64.toUInt64)) p.data := by
  have hpad := writeDimensions_pad stack (p.dimensions.map Int64.toUInt64) (by simpa using h)
  rw [List.length_map] at hpad
  simp only [fromProtoTensor, ← bind_assoc, hpad]
  rfl

/-- `GetSizeInBytes` of the padded dimensions is the size of the message. -/
theorem getSizeInBytes_pad (p : TensorMessage) (h : p.dimensions.length ≤ 4) :
    (⟨getDataTypeFromString p.dtype, p.dimensions.length,
      padDimensions (p.dimensions.map Int64.toUInt64), ()⟩ : Tensor Unit).getSizeInBytes =
      sizeInBytes p := by
  show padDimensions _ 0 * padDimensions _ 1 * padDimensions _ 2 * padDimensions _ 3 * _ = _
  rw [numElements_pad _ (by simpa using h)]
  rfl

/-- The four ways a call on a tensor ends. -/
theorem fromProtoTensor_cases (sizes : List UInt64) (p : TensorMessage) :
    (4 < p.dimensions.length ∧
      fromProtoTensor newChar stack sizes p = .error (.undefined (.writeDimension 4))) ∨
    (∃ what, p.dimensions.length ≤ 4 ∧ newChar sizes (sizeInBytes p) = some what ∧
      fromProtoTensor newChar stack sizes p = .error (.thrown what)) ∨
    (p.dimensions.length ≤ 4 ∧ newChar sizes (sizeInBytes p) = none ∧
      p.data.length < (sizeInBytes p).toNat ∧
      fromProtoTensor newChar stack sizes p = .error (.undefined (.readData p.data.length))) ∨
    (p.dimensions.length ≤ 4 ∧ newChar sizes (sizeInBytes p) = none ∧
      (sizeInBytes p).toNat ≤ p.data.length ∧
      fromProtoTensor newChar stack sizes p = .ok (L1.fromProtoTensor p, sizeInBytes p :: sizes)) := by
  by_cases hd : p.dimensions.length ≤ 4
  · have hsize := getSizeInBytes_pad p hd
    rw [fromProtoTensor_eq newChar stack sizes p hd]
    simp only [setTensor, hsize]
    cases ha : newChar sizes (sizeInBytes p) with
    | some what => exact .inr (.inl ⟨what, hd, rfl, rfl⟩)
    | none =>
      by_cases hl : (sizeInBytes p).toNat ≤ p.data.length
      · refine .inr (.inr (.inr ⟨hd, rfl, hl, ?_⟩))
        rw [copyData_ok _ _ _ (by omega)]
        simp only [L1.fromProtoTensor, hsize]
        rfl
      · refine .inr (.inr (.inl ⟨hd, rfl, by omega, ?_⟩))
        rw [copyData_undefined _ _ _ (Nat.zero_le _) (by omega)]
        rfl
  · refine .inl ⟨by omega, ?_⟩
    simp only [fromProtoTensor]
    rw [writeDimensions_undefined _ _ _ (Nat.zero_le _) (by simpa using hd)]
    rfl

/-! ## Any message -/

/-- What is left to ask once a part of a message has been read, with the
leaves `l` still to come. -/
def Rest {α : Type} (l : List (Option TensorMessage)) : Except Fault (α × List UInt64) → Prop
  | .error (.undefined _) => False
  | .error (.thrown _) => True
  | .ok (_, sizes) => MeetsFitting newChar sizes l

theorem rest_map {α β : Type} (l : List (Option TensorMessage)) (f : α → β)
    (r : Except Fault (α × List UInt64)) :
    Rest newChar l (r >>= fun x => pure (f x.1, x.2)) ↔ Rest newChar l r := by
  rcases r with (_ | _) | _ <;> exact Iff.rfl

theorem rest_tensor (sizes : List UInt64) (p : TensorMessage) (l : List (Option TensorMessage)) :
    MeetsFitting newChar sizes (some p :: l) ↔
      Rest newChar l (fromProtoTensor newChar stack sizes p) := by
  simp only [MeetsFitting]
  rcases fromProtoTensor_cases newChar stack sizes p with ⟨hd, h⟩ | ⟨what, hd, ha, h⟩ |
    ⟨hd, ha, hl, h⟩ | ⟨hd, ha, hl, h⟩
  · simp only [h, Rest, iff_false, not_and]
    omega
  · simp [h, Rest, hd, ha]
  · simp only [h, Rest, ha, iff_false, not_and, forall_const]
    omega
  · simp [h, Rest, hd, ha, hl]

mutual

/-- Reading a part of the message is defined, and what follows it fits,
exactly when its tensors and what follows them fit. -/
theorem meetsFitting_leaves : ∀ (m : Message) (sizes : List UInt64) (l : List (Option TensorMessage)),
    MeetsFitting newChar sizes (leaves m ++ l) ↔ Rest newChar l (fromProto newChar stack sizes m)
  | .noneValue, _, _ => Iff.rfl
  | .intValue _, _, _ => Iff.rfl
  | .doubleValue _, _, _ => Iff.rfl
  | .stringValue _, _, _ => Iff.rfl
  | .boolValue _, _, _ => Iff.rfl
  | .notSet, _, _ => Iff.rfl
  | .tensorValue p, sizes, l =>
    (rest_tensor newChar stack sizes p l).trans (rest_map newChar l Value.tensor _).symm
  | .listValue items, sizes, l =>
    (meetsFitting_leavesList items sizes l).trans (rest_map newChar l Value.list _).symm
  | .dictValue items, sizes, l =>
    (meetsFitting_leavesDict items sizes [] l).trans (rest_map newChar l Value.dict _).symm

theorem meetsFitting_leavesList : ∀ (items : List Message) (sizes : List UInt64)
    (l : List (Option TensorMessage)),
    MeetsFitting newChar sizes (leavesList items ++ l) ↔
      Rest newChar l (fromProtoList newChar stack sizes items)
  | [], _, _ => Iff.rfl
  | item :: items, sizes, l => by
    simp only [leavesList, List.append_assoc, fromProtoList]
    rw [meetsFitting_leaves item sizes (leavesList items ++ l)]
    rcases fromProto newChar stack sizes item with (_ | _) | ⟨val, sizes'⟩
    · exact Iff.rfl
    · exact Iff.rfl
    · exact (meetsFitting_leavesList items sizes' l).trans (rest_map newChar l (val :: ·) _).symm

theorem meetsFitting_leavesDict : ∀ (items : List (StdString × Message)) (sizes : List UInt64)
    (dict : List (StdString × Value)) (l : List (Option TensorMessage)),
    MeetsFitting newChar sizes (leavesDict items ++ l) ↔
      Rest newChar l (fromProtoDict newChar stack sizes dict items)
  | [], _, _, _ => Iff.rfl
  | (key, value) :: items, sizes, dict, l => by
    simp only [leavesDict, List.append_assoc, fromProtoDict]
    rw [meetsFitting_leaves value sizes (leavesDict items ++ l)]
    rcases fromProto newChar stack sizes value with (_ | _) | ⟨val, sizes'⟩
    · exact Iff.rfl
    · exact Iff.rfl
    · exact meetsFitting_leavesDict items sizes' (OrdMap.insert dict key val) l

end

/-! ## What such a call returns -/

theorem fromProtoTensor_refines {sizes sizes' : List UInt64} {p : TensorMessage}
    {t : Tensor (List UInt8)} (h : fromProtoTensor newChar stack sizes p = .ok (t, sizes')) :
    t = L1.fromProtoTensor p := by
  rcases fromProtoTensor_cases newChar stack sizes p with ⟨_, h'⟩ | ⟨_, _, _, h'⟩ |
    ⟨_, _, _, h'⟩ | ⟨_, _, _, h'⟩
  · simp [h'] at h
  · simp [h'] at h
  · simp [h'] at h
  · rw [h'] at h
    simp only [Except.ok.injEq, Prod.mk.injEq] at h
    exact h.1.symm

mutual

theorem fromProto_refines : ∀ (m : Message) {sizes sizes' : List UInt64} {v : Value},
    fromProto newChar stack sizes m = .ok (v, sizes') → L1.fromProto m = .ok v
  | .noneValue, _, _, _, h => by cases h; rfl
  | .intValue _, _, _, _, h => by cases h; rfl
  | .doubleValue _, _, _, _, h => by cases h; rfl
  | .stringValue _, _, _, _, h => by cases h; rfl
  | .boolValue _, _, _, _, h => by cases h; rfl
  | .notSet, _, _, _, h => by cases h
  | .tensorValue p, _, _, _, h => by
    obtain ⟨⟨t, _⟩, ht, h⟩ := bind_ok_iff.mp h
    cases h
    rw [fromProtoTensor_refines newChar stack ht]
    rfl
  | .listValue items, _, _, _, h => by
    obtain ⟨⟨list, _⟩, hl, h⟩ := bind_ok_iff.mp h
    cases h
    simp only [L1.fromProto, fromProtoList_refines items hl]
    rfl
  | .dictValue items, _, _, _, h => by
    obtain ⟨⟨dict, _⟩, hd, h⟩ := bind_ok_iff.mp h
    cases h
    simp only [L1.fromProto, fromProtoDict_refines items hd]
    rfl

theorem fromProtoList_refines : ∀ (items : List Message) {sizes sizes' : List UInt64}
    {list : List Value},
    fromProtoList newChar stack sizes items = .ok (list, sizes') → L1.fromProtoList items = .ok list
  | [], _, _, _, h => by cases h; rfl
  | item :: items, _, _, _, h => by
    obtain ⟨⟨val, _⟩, hv, h⟩ := bind_ok_iff.mp h
    obtain ⟨⟨list, _⟩, hl, h⟩ := bind_ok_iff.mp h
    cases h
    simp only [L1.fromProtoList, fromProto_refines item hv, fromProtoList_refines items hl]
    rfl

theorem fromProtoDict_refines : ∀ (items : List (StdString × Message)) {sizes sizes' : List UInt64}
    {dict dict' : List (StdString × Value)},
    fromProtoDict newChar stack sizes dict items = .ok (dict', sizes') →
      L1.fromProtoDict dict items = .ok dict'
  | [], _, _, _, _, h => by cases h; rfl
  | (key, value) :: items, _, _, _, _, h => by
    obtain ⟨⟨val, _⟩, hv, h⟩ := bind_ok_iff.mp h
    simp only [L1.fromProtoDict, fromProto_refines value hv]
    exact fromProtoDict_refines items h

end

/-! ## Messages that are read within their arrays -/

/-- The call throws, or returns the value that is read from the message. -/
def Defined (m : Message) (r : Except Fault (Value × List UInt64)) : Prop :=
  (∃ what, r = .error (.thrown what)) ∨ ∃ v sizes, r = .ok (v, sizes) ∧ L1.fromProto m = .ok v

/-- **Untrusted tensors.** `FromProto` makes no access outside of its arrays
exactly when every tensor it meets before it throws fits. -/
theorem defined_iff (m : Message) :
    Defined m (fromProto newChar stack [] m) ↔ MeetsFitting newChar [] (leaves m) := by
  have h := meetsFitting_leaves newChar stack m [] []
  rw [List.append_nil] at h
  rw [h]
  rcases hr : fromProto newChar stack [] m with (what | access) | ⟨v, sizes⟩
  · simp [Defined, Rest]
  · simp [Defined, Rest]
  · have hv := fromProto_refines newChar stack m hr
    simp [Defined, Rest, hv, MeetsFitting]

end

/-- Five dimensions write behind the array; eight doubles without a byte of
data read behind the field. -/
theorem not_defined :
    fromProto (fun _ _ => none) (fun _ => 0) []
        (.listValue [.tensorValue ⟨ascii "B", [1, 1, 1, 1, 1], [7]⟩]) =
      .error (.undefined (.writeDimension 4)) ∧
    fromProto (fun _ _ => none) (fun _ => 0) [] (.tensorValue ⟨ascii "d", [8], []⟩) =
      .error (.undefined (.readData 0)) ∧
    ¬ ∀ newChar stack m, Defined m (fromProto newChar stack [] m) := by
  have hdims : fromProto (fun _ _ => none) (fun _ => 0) []
        (.listValue [.tensorValue ⟨ascii "B", [1, 1, 1, 1, 1], [7]⟩]) =
      .error (.undefined (.writeDimension 4)) := rfl
  refine ⟨hdims, rfl, fun h => ?_⟩
  have := h (fun _ _ => none) (fun _ => 0) (.listValue [.tensorValue ⟨ascii "B", [1, 1, 1, 1, 1], [7]⟩])
  rw [hdims] at this
  simp [Defined] at this

end Catkit2.L1.PeerMessage
