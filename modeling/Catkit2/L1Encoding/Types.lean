import Catkit2.Core.OrdMap
import Catkit2.L1Encoding.Tensor

/-!
# Values on the wire (catkit_core/Types.cpp, proto/core.proto)

`Value` is the variant that property values, command arguments and command
results are made of; `Message` is the generated class `catkit_proto::Value`.
The accessors of a generated class store and return what was set, and of a
`oneof` the alternative that was set last, also for an empty list or dict.

A protobuf map has no order: `FromProto` meets the entries of a dictionary in
whatever order the receiver's map iterates them. `SameMessage` relates two
messages that are equal up to that order.

* `fromProto_of_same`: every well-formed value is read back from any message
  that is the same as its own.
-/
namespace Catkit2.L1

/-! ## The two sides -/

/-- `double` is its bit pattern. `Dict` is a `std::map`: its entries in key
order (`Value.WF`).
mirrors catkit_core/Types.h:15-38 -/
inductive Value where
  | noneValue
  | int (i : Int64)
  | double (bits : UInt64)
  | string (s : StdString)
  | bool (b : Bool)
  | dict (d : List (StdString × Value))
  | list (l : List Value)
  | tensor (t : Tensor (List UInt8))

/-- mirrors proto/core.proto:15-20 -/
structure TensorMessage where
  dtype : StdString
  dimensions : List Int64
  data : List UInt8

/-- `notSet`: no alternative of the `oneof` is present.
mirrors proto/core.proto:5-40 -/
inductive Message where
  | notSet
  | noneValue
  | intValue (i : Int64)
  | doubleValue (bits : UInt64)
  | stringValue (s : StdString)
  | boolValue (b : Bool)
  | dictValue (items : List (StdString × Message))
  | listValue (items : List Message)
  | tensorValue (t : TensorMessage)

/-! ## ToProto -/

/-- mirrors catkit_core/Tensor.cpp:245-253 -/
def toProtoTensor (t : Tensor (List UInt8)) : TensorMessage where
  dtype := getDataTypeAsString t.dataType
  dimensions := ((List.finRange 4).take t.numDimensions).map fun i => (t.dimensions i).toInt64
  data := t.data.take t.getSizeInBytes.toNat

mutual

/-- mirrors catkit_core/Types.cpp:3-41 -/
def toProto : Value → Message
  | .noneValue => .noneValue
  | .int i => .intValue i
  | .double bits => .doubleValue bits
  | .string s => .stringValue s
  | .bool b => .boolValue b
  | .dict d => .dictValue (toProtoDict d)
  | .list l => .listValue (toProtoList l)
  | .tensor t => .tensorValue (toProtoTensor t)

/-- mirrors catkit_core/Types.cpp:43-52 -/
def toProtoList : List Value → List Message
  | [] => []
  | v :: l => toProto v :: toProtoList l

/-- mirrors catkit_core/Types.cpp:54-64 -/
def toProtoDict : List (StdString × Value) → List (StdString × Message)
  | [] => []
  | (key, value) :: d => (key, toProto value) :: toProtoDict d

end

/-! ## FromProto -/

/-- `Tensor::Set` copies `GetSizeInBytes()` bytes from `data().c_str()`.
mirrors catkit_core/Tensor.cpp:255-267 -/
def fromProtoTensor (p : TensorMessage) : Tensor (List UInt8) :=
  let t : Tensor Unit :=
    ⟨getDataTypeFromString p.dtype, p.dimensions.length,
      padDimensions (p.dimensions.map Int64.toUInt64), ()⟩
  { t with data := p.data.take t.getSizeInBytes.toNat }

mutual

/-- mirrors catkit_core/Types.cpp:66-110 -/
def fromProto : Message → Except String Value
  | .noneValue => .ok .noneValue
  | .intValue i => .ok (.int i)
  | .doubleValue bits => .ok (.double bits)
  | .stringValue s => .ok (.string s)
  | .boolValue b => .ok (.bool b)
  | .dictValue items => do return .dict (← fromProtoDict [] items)
  | .listValue items => do return .list (← fromProtoList items)
  | .tensorValue t => .ok (.tensor (fromProtoTensor t))
  | .notSet => .error "Unknown value type."

/-- mirrors catkit_core/Types.cpp:112-122 -/
def fromProtoList : List Message → Except String (List Value)
  | [] => .ok []
  | item :: items => do
    let val ← fromProto item
    return val :: (← fromProtoList items)

/-- `dict` is what the loop has inserted so far.
mirrors catkit_core/Types.cpp:124-134 -/
def fromProtoDict (dict : List (StdString × Value)) :
    List (StdString × Message) → Except String (List (StdString × Value))
  | [] => .ok dict
  | (key, value) :: items => do
    let val ← fromProto value
    fromProtoDict (OrdMap.insert dict key val) items

end

/-! ## Well-formed values -/

/-- At most four dimensions, the unused ones 1, the data exactly the bytes of
the array, and a known type. -/
structure Tensor.WF (t : Tensor (List UInt8)) : Prop where
  numDimensions_le : t.numDimensions ≤ 4
  unused : ∀ i : Fin 4, t.numDimensions ≤ i → t.dimensions i = 1
  length_data : t.data.length = t.getSizeInBytes.toNat
  known : t.dataType ≠ .unknown

mutual

/-- Tensors are well formed and dictionaries are maps, at every depth. -/
def Value.WF : Value → Prop
  | .dict d => OrdMap.Sorted d ∧ Value.WFDict d
  | .list l => Value.WFList l
  | .tensor t => t.WF
  | _ => True

def Value.WFList : List Value → Prop
  | [] => True
  | v :: l => v.WF ∧ Value.WFList l

def Value.WFDict : List (StdString × Value) → Prop
  | [] => True
  | (_, v) :: d => v.WF ∧ Value.WFDict d

end

/-! ## Messages up to the order of map entries -/

mutual

inductive SameMessage : Message → Message → Prop
  | notSet : SameMessage .notSet .notSet
  | noneValue : SameMessage .noneValue .noneValue
  | intValue (i : Int64) : SameMessage (.intValue i) (.intValue i)
  | doubleValue (bits : UInt64) : SameMessage (.doubleValue bits) (.doubleValue bits)
  | stringValue (s : StdString) : SameMessage (.stringValue s) (.stringValue s)
  | boolValue (b : Bool) : SameMessage (.boolValue b) (.boolValue b)
  | dictValue {items mid items' : List (StdString × Message)} :
      SameEntries items mid → mid.Perm items' → SameMessage (.dictValue items) (.dictValue items')
  | listValue {items items' : List Message} :
      SameItems items items' → SameMessage (.listValue items) (.listValue items')
  | tensorValue (t : TensorMessage) : SameMessage (.tensorValue t) (.tensorValue t)

inductive SameItems : List Message → List Message → Prop
  | nil : SameItems [] []
  | cons {m m' : Message} {l l' : List Message} :
      SameMessage m m' → SameItems l l' → SameItems (m :: l) (m' :: l')

inductive SameEntries : List (StdString × Message) → List (StdString × Message) → Prop
  | nil : SameEntries [] []
  | cons (key : StdString) {m m' : Message} {l l' : List (StdString × Message)} :
      SameMessage m m' → SameEntries l l' → SameEntries ((key, m) :: l) ((key, m') :: l')

end

mutual

theorem SameMessage.refl : ∀ m : Message, SameMessage m m
  | .notSet => .notSet
  | .noneValue => .noneValue
  | .intValue i => .intValue i
  | .doubleValue bits => .doubleValue bits
  | .stringValue s => .stringValue s
  | .boolValue b => .boolValue b
  | .dictValue items => .dictValue (SameEntries.refl items) (.refl items)
  | .listValue items => .listValue (SameItems.refl items)
  | .tensorValue t => .tensorValue t

theorem SameItems.refl : ∀ l : List Message, SameItems l l
  | [] => .nil
  | m :: l => .cons (SameMessage.refl m) (SameItems.refl l)

theorem SameEntries.refl : ∀ l : List (StdString × Message), SameEntries l l
  | [] => .nil
  | (key, m) :: l => .cons key (SameMessage.refl m) (SameEntries.refl l)

end

/-! ## Round trip -/

/-- The dimensions dropped by `ToProto` are the ones `FromProto` restores. -/
theorem padDimensions_take (dims : Fin 4 → UInt64) (n : Nat)
    (h : ∀ i : Fin 4, n ≤ i → dims i = 1) :
    padDimensions ((((List.finRange 4).take n).map fun i => (dims i).toInt64).map Int64.toUInt64) =
      dims := by
  funext i
  simp only [padDimensions, List.map_map, List.getD_eq_getElem?_getD, List.getElem?_map]
  by_cases hi : i.val < n
  · rw [List.getElem?_take_of_lt hi, List.getElem?_eq_getElem (by simp)]
    simp
  · rw [List.getElem?_take_eq_none (by omega), h i (by omega)]
    rfl

theorem fromProtoTensor_toProtoTensor (t : Tensor (List UInt8)) (h : t.WF) :
    fromProtoTensor (toProtoTensor t) = t := by
  obtain ⟨dt, n, dims, data⟩ := t
  have hlen : ((List.finRange 4).take n).length = n := by
    have := h.numDimensions_le
    simp only [List.length_take, List.length_finRange] at *
    omega
  have hpad := padDimensions_take dims n h.unused
  have hdata := h.length_data
  simp only [fromProtoTensor, toProtoTensor, getDataTypeFromString_asString, List.length_map, hlen,
    hpad, Tensor.mk.injEq, true_and]
  rw [List.take_take]
  exact List.take_of_length_le (by simpa [Tensor.getSizeInBytes, Tensor.getNumElements] using hdata.le)

/-- Entry by entry, a message reads back as the value. -/
def Decodes (e : StdString × Value) (p : StdString × Message) : Prop :=
  e.1 = p.1 ∧ fromProto p.2 = .ok e.2

/-- The loop of `FromProto(Dict)` inserts the values its entries decode to. -/
theorem fromProtoDict_decodes {d : List (StdString × Value)} {items : List (StdString × Message)}
    (h : List.Forall₂ Decodes d items) (acc : List (StdString × Value)) :
    fromProtoDict acc items = .ok (OrdMap.insertAll acc d) := by
  induction h generalizing acc with
  | nil => rfl
  | @cons e p d items hep _ ih =>
    obtain ⟨k, m⟩ := p
    obtain ⟨hk, hm⟩ := hep
    simp only at hk hm
    subst hk
    simp only [fromProtoDict, hm, bind, Except.bind]
    exact ih _

mutual

/-- Any message that is the same as `v`'s own reads back as `v`. -/
theorem fromProto_of_same : ∀ (v : Value), v.WF → ∀ p, SameMessage (toProto v) p →
    fromProto p = .ok v
  | .noneValue, _, _, h => by cases h; rfl
  | .int _, _, _, h => by cases h; rfl
  | .double _, _, _, h => by cases h; rfl
  | .string _, _, _, h => by cases h; rfl
  | .bool _, _, _, h => by cases h; rfl
  | .tensor t, hw, _, h => by
    cases h
    simp only [fromProto, fromProtoTensor_toProtoTensor t hw]
  | .list l, hw, _, h => by
    cases h with
    | listValue hs =>
      simp only [fromProto, fromProtoList_of_same l hw _ hs, bind, Except.bind, pure, Except.pure]
  | .dict d, hw, _, h => by
    cases h with
    | dictValue hs hp =>
      have hd := fromProtoDict_of_same d hw.2 _ hs
      -- the receiver meets the entries in another order: it inserts `d'`, a permutation of `d`
      have hc : Relation.Comp (List.Forall₂ Decodes) List.Perm d _ := ⟨_, hd, hp⟩
      rw [List.forall₂_comp_perm_eq_perm_comp_forall₂] at hc
      obtain ⟨d', hperm, hd'⟩ := hc
      simp only [fromProto, fromProtoDict_decodes hd', bind, Except.bind, pure, Except.pure]
      rw [show OrdMap.insertAll [] d' = d from OrdMap.ofEntries_perm hw.1 hperm]

theorem fromProtoList_of_same : ∀ (l : List Value), Value.WFList l → ∀ ps,
    SameItems (toProtoList l) ps → fromProtoList ps = .ok l
  | [], _, _, h => by cases h; rfl
  | v :: l, hw, _, h => by
    cases h with
    | cons hm hl =>
      simp only [fromProtoList, fromProto_of_same v hw.1 _ hm, fromProtoList_of_same l hw.2 _ hl,
        bind, Except.bind, pure, Except.pure]

theorem fromProtoDict_of_same : ∀ (d : List (StdString × Value)), Value.WFDict d → ∀ ps,
    SameEntries (toProtoDict d) ps → List.Forall₂ Decodes d ps
  | [], _, _, h => by cases h; exact .nil
  | (key, v) :: d, hw, _, h => by
    cases h with
    | cons _ hm hl =>
      exact .cons ⟨rfl, fromProto_of_same v hw.1 _ hm⟩ (fromProtoDict_of_same d hw.2 _ hl)

end

/-- **Round trip.** `FromProto(ToProto(v)) = v` for every well-formed value,
and the receiver reads `v` back in whatever order its maps iterate. -/
theorem fromProto_toProto (v : Value) (hv : v.WF) :
    fromProto (toProto v) = .ok v ∧ ∀ p, SameMessage (toProto v) p → fromProto p = .ok v :=
  ⟨fromProto_of_same v hv _ (SameMessage.refl _), fromProto_of_same v hv⟩

/-- A dictionary of an empty list, and of a list of an empty string, an empty
dictionary, a NaN and a tensor. -/
def nestedExample : Value :=
  .dict [(ascii "", .list []),
    (ascii "a", .list [.string (ascii ""), .dict [], .double 0x7ff8000000000001,
      .tensor ⟨.int16, 1, padDimensions [1], [7, 0]⟩])]

theorem nestedExample_wf : nestedExample.WF := by
  refine ⟨by unfold OrdMap.Sorted; decide, trivial, ⟨trivial, ?_, trivial, ?_, trivial⟩, trivial⟩
  · exact ⟨List.Pairwise.nil, trivial⟩
  · exact ⟨by decide, by decide, rfl, by decide⟩

theorem fromProto_toProto_nested :
    fromProto (toProto nestedExample) = .ok nestedExample ∧
      ∀ p, SameMessage (toProto nestedExample) p → fromProto p = .ok nestedExample :=
  fromProto_toProto nestedExample nestedExample_wf

end Catkit2.L1
