import Mathlib.Algebra.BigOperators.Group.List.Basic

/-!
# Arrays of any number of dimensions

An `NdArray` is a shape and the elements in row-major order, as many as the
shape says. `blocks` cuts elements into equal parts, which is how a dimension
is peeled off: the first sub-array is the first block (`first`), and
broadcasting stretches block by block (`stretch`), with a dimension of one
repeated as often as the target asks.

* `flatten_blocks`: the parts make up the whole.
* `broadcastData_self`: an array of the shape asked for is left alone.
* `broadcastTo_ok`: broadcasting makes up no elements.
* `countTrue_of_even`: equal parts count for the whole.
* `compress_expand`, `expand_compress`: what a mask keeps, put back in its places.
-/
namespace Catkit2

/-! ## Blocks -/

/-- The first `k` parts of `n` elements. -/
def blocks {α : Type} : Nat → Nat → List α → List (List α)
  | 0, _, _ => []
  | k + 1, n, l => l.take n :: blocks k n (l.drop n)

section Blocks

variable {α : Type} {n : Nat}

theorem length_of_mem_blocks : ∀ {k : Nat} {l b : List α}, l.length = k * n → b ∈ blocks k n l → b.length = n
  | 0, _, _, _, hb => nomatch hb
  | k + 1, l, b, hl, hb => by
    rw [Nat.succ_mul] at hl
    rcases List.mem_cons.mp hb with rfl | hb
    · rw [List.length_take]
      omega
    · refine length_of_mem_blocks ?_ hb
      rw [List.length_drop]
      omega

theorem mem_of_mem_blocks : ∀ {k : Nat} {l b : List α} {x : α}, b ∈ blocks k n l → x ∈ b → x ∈ l
  | 0, _, _, _, hb, _ => nomatch hb
  | k + 1, l, b, x, hb, hx => by
    rcases List.mem_cons.mp hb with rfl | hb
    · exact List.mem_of_mem_take hx
    · exact List.mem_of_mem_drop (mem_of_mem_blocks hb hx)

theorem flatten_blocks : ∀ (k : Nat) (l : List α), l.length = k * n → (blocks k n l).flatten = l
  | 0, l, hl => by
    rw [Nat.zero_mul] at hl
    exact (List.eq_nil_of_length_eq_zero hl).symm
  | k + 1, l, hl => by
    rw [Nat.succ_mul] at hl
    rw [blocks, List.flatten_cons, flatten_blocks k (l.drop n) (by rw [List.length_drop]; omega),
      List.take_append_drop]

theorem length_blocks (k : Nat) (l : List α) : (blocks k n l).length = k := by
  induction k generalizing l with
  | zero => rfl
  | succ k ih => rw [blocks, List.length_cons, ih]

end Blocks

/-! ## Arrays -/

structure NdArray (α : Type) where
  shape : List Nat
  data : List α
  length_data : data.length = shape.prod

namespace NdArray

variable {α : Type}

def ndim (a : NdArray α) : Nat := a.shape.length

theorem length_of_shape {a : NdArray α} {n : Nat} (h : a.shape = [n]) : a.data.length = n := by
  rw [a.length_data, h, List.prod_singleton]

/-- An array of one dimension. -/
def ofList (l : List α) : NdArray α := ⟨[l.length], l, by simp⟩

/-- `np.zeros(n)` -/
def zeros [Zero α] (n : Nat) : NdArray α := ⟨[n], List.replicate n 0, by simp⟩

def map {β : Type} (f : α → β) (a : NdArray α) : NdArray β :=
  ⟨a.shape, a.data.map f, by rw [List.length_map, a.length_data]⟩

/-- `a[0]`; there is none when `a` has no dimension or its first is empty. -/
def first (a : NdArray α) : Option (NdArray α) :=
  match h : a.shape with
  | [] | 0 :: _ => none
  | (d + 1) :: shape => some ⟨shape, a.data.take shape.prod, by
      have hl := a.length_data
      rw [h, List.prod_cons, Nat.succ_mul] at hl
      rw [List.length_take]
      omega⟩

theorem first_of_empty {a : NdArray α} {shape : List Nat} (h : a.shape = 0 :: shape) : a.first = none := by
  obtain ⟨_, _, _⟩ := a
  cases h
  rfl

theorem first_of_shape {a : NdArray α} {d : Nat} {shape : List Nat} (h : a.shape = (d + 1) :: shape) :
    ∃ f, a.first = some f ∧ f.data = a.data.take shape.prod := by
  obtain ⟨_, _, _⟩ := a
  cases h
  exact ⟨_, rfl, rfl⟩

/-- An array of one dimension whose elements are all zero. -/
theorem eq_zeros [Zero α] {a : NdArray α} {n : Nat} (hs : a.shape = [n]) (h : ∀ x ∈ a.data, x = 0) :
    a = zeros n := by
  obtain ⟨shape, data, hlen⟩ := a
  cases hs
  have hdata : data = List.replicate n 0 := List.eq_replicate_iff.mpr ⟨by simpa using hlen, h⟩
  cases hdata
  rfl

/-- `np.expand_dims(a, axis=0)` -/
def expandDims (a : NdArray α) : NdArray α := ⟨1 :: a.shape, a.data, by rw [a.length_data]; simp⟩

/-- `np.sum` of an array of truth values. -/
def countTrue (mask : NdArray Bool) : Nat := mask.data.count true

/-! ## Broadcasting -/

/-- Every dimension is the one asked for, or one. -/
def stretches : List Nat → List Nat → Bool
  | [], [] => true
  | s :: src, t :: dst => (s = t || s = 1) && stretches src dst
  | _, _ => false

/-- The elements of shape `src` brought to shape `dst`. -/
def stretch : List Nat → List Nat → List α → List α
  | s :: src, t :: dst, l =>
    if s = t then (blocks s src.prod l).flatMap (stretch src dst)
    else (List.replicate t (stretch src dst l)).flatten
  | _, _, l => l

theorem length_stretch : ∀ {src dst : List Nat} {l : List α}, stretches src dst = true →
    l.length = src.prod → (stretch src dst l).length = dst.prod
  | [], [], _, _, hl => hl
  | s :: src, t :: dst, l, h, hl => by
    simp only [stretches, Bool.and_eq_true, Bool.or_eq_true, decide_eq_true_eq] at h
    rw [List.prod_cons] at hl
    unfold stretch
    split
    · rename_i hst
      have hparts : ∀ m ∈ (blocks s src.prod l).map fun b => (stretch src dst b).length, m = dst.prod := by
        intro m hm
        obtain ⟨b, hb, rfl⟩ := List.mem_map.mp hm
        exact length_stretch h.2 (length_of_mem_blocks hl hb)
      rw [List.length_flatMap, List.sum_eq_card_nsmul _ _ hparts, List.length_map, length_blocks,
        List.prod_cons, hst]
      rfl
    · rename_i hst
      rw [h.1.resolve_left hst, Nat.one_mul] at hl
      rw [List.length_flatten, List.map_replicate, List.sum_replicate_nat, length_stretch h.2 hl, List.prod_cons]

theorem mem_of_mem_stretch : ∀ {src dst : List Nat} {l : List α} {x : α}, x ∈ stretch src dst l → x ∈ l
  | [], _, _, _, hx => hx
  | _ :: _, [], _, _, hx => hx
  | s :: src, t :: dst, l, x, hx => by
    unfold stretch at hx
    split at hx
    · obtain ⟨b, hb, hx⟩ := List.mem_flatMap.mp hx
      exact mem_of_mem_blocks hb (mem_of_mem_stretch hx)
    · obtain ⟨b, hb, hx⟩ := List.mem_flatten.mp hx
      rw [List.eq_of_mem_replicate hb] at hx
      exact mem_of_mem_stretch hx

theorem stretches_self (shape : List Nat) : stretches shape shape = true := by
  induction shape with
  | nil => rfl
  | cons s shape ih => simp [stretches, ih]

theorem stretch_self : ∀ {shape : List Nat} {l : List α}, l.length = shape.prod → stretch shape shape l = l
  | [], _, _ => rfl
  | s :: shape, l, hl => by
    rw [List.prod_cons] at hl
    have hblocks : (blocks s shape.prod l).map (stretch shape shape) = blocks s shape.prod l := by
      have hid : ∀ b ∈ blocks s shape.prod l, stretch shape shape b = b :=
        fun b hb => stretch_self (length_of_mem_blocks hl hb)
      rw [List.map_congr_left hid, List.map_id']
    rw [stretch, if_pos rfl, List.flatMap_def, hblocks, flatten_blocks s l hl]

/-- Missing dimensions in front are ones. -/
def padded (a : NdArray α) (shape : List Nat) : List Nat :=
  List.replicate (shape.length - a.ndim) 1 ++ a.shape

theorem prod_padded (a : NdArray α) (shape : List Nat) : (a.padded shape).prod = a.shape.prod := by
  simp [padded]

/-- The elements of `a` in an array of shape `shape`, if they go there. -/
def broadcastData (a : NdArray α) (shape : List Nat) : Option { l : List α // l.length = shape.prod } :=
  if h : stretches (a.padded shape) shape = true then
    some ⟨stretch (a.padded shape) shape a.data,
      length_stretch h (a.length_data.trans (a.prod_padded shape).symm)⟩
  else none

/-- `np.broadcast_to`, where it does not raise. -/
def broadcastTo (a : NdArray α) (shape : List Nat) : Option (NdArray α) :=
  (a.broadcastData shape).map fun l => ⟨shape, l.val, l.property⟩

/-- `a += b`: `b` is broadcast to the shape of `a`. -/
def addInPlace [Add α] (a b : NdArray α) : Option (NdArray α) :=
  (b.broadcastData a.shape).map fun l => ⟨a.shape, List.zipWith (· + ·) a.data l.val, by
    rw [List.length_zipWith, a.length_data, l.property, Nat.min_self]⟩

theorem broadcastTo_isSome_iff (a : NdArray α) (shape : List Nat) :
    (∃ b, a.broadcastTo shape = some b) ↔ stretches (a.padded shape) shape = true := by
  unfold broadcastTo broadcastData
  split
  · rename_i h
    exact iff_of_true ⟨_, rfl⟩ h
  · rename_i h
    exact iff_of_false (fun ⟨b, hb⟩ => nomatch hb) h

/-- Broadcasting makes up no elements. -/
theorem broadcastTo_ok {a b : NdArray α} {shape : List Nat} (h : a.broadcastTo shape = some b) :
    b.shape = shape ∧ ∀ x ∈ b.data, x ∈ a.data := by
  unfold broadcastTo broadcastData at h
  split at h
  · cases h
    exact ⟨rfl, fun x hx => mem_of_mem_stretch hx⟩
  · cases h

theorem broadcastData_self {a : NdArray α} {shape : List Nat} (h : a.shape = shape) :
    (a.broadcastData shape).map Subtype.val = some a.data := by
  subst h
  have hpad : a.padded a.shape = a.shape := by simp [padded, ndim]
  unfold broadcastData
  rw [dif_pos (by rw [hpad]; exact stretches_self a.shape), Option.map_some]
  refine congrArg some ?_
  show stretch (a.padded a.shape) a.shape a.data = a.data
  rw [hpad]
  exact stretch_self a.length_data

/-- Arrays of one shape are added element by element. -/
theorem addInPlace_of_shape [Add α] {a b : NdArray α} (h : b.shape = a.shape) :
    ∃ c, a.addInPlace b = some c ∧ c.shape = a.shape ∧ c.data = List.zipWith (· + ·) a.data b.data := by
  obtain ⟨l, hl, hdata⟩ := Option.map_eq_some_iff.mp (broadcastData_self h)
  unfold addInPlace
  rw [hl, Option.map_some]
  exact ⟨_, rfl, rfl, congrArg _ hdata⟩

/-! ## Masks -/

/-- `a[mask]`, for a mask of the shape of `a`: the elements where it is true. -/
def compress (mask : NdArray Bool) (a : NdArray α) : NdArray α :=
  ofList (((a.data.zip mask.data).filter (·.2)).map (·.1))

theorem mem_compress {mask : NdArray Bool} {a : NdArray α} {x : α} (h : x ∈ (compress mask a).data) :
    x ∈ a.data := by
  obtain ⟨p, hp, rfl⟩ := List.mem_map.mp h
  exact (List.of_mem_zip (List.mem_of_mem_filter hp)).1

theorem length_zip_filter : ∀ {l : List α} {mask : List Bool}, l.length = mask.length →
    (((l.zip mask).filter (·.2)).map (·.1)).length = mask.count true
  | [], [], _ => rfl
  | x :: l, m :: mask, h => by
    have ih := length_zip_filter (Nat.succ.inj h)
    cases m with
    | true =>
      rw [List.zip_cons_cons, List.filter_cons_of_pos rfl, List.map_cons, List.length_cons, ih, List.count_cons_self]
    | false =>
      rw [List.zip_cons_cons, List.filter_cons_of_neg (by simp), ih, List.count_cons_of_ne (by simp)]

/-- One element for each place that the mask keeps. -/
theorem shape_compress {mask : NdArray Bool} {a : NdArray α} (h : a.shape = mask.shape) :
    (compress mask a).shape = [mask.countTrue] := by
  have hlen : a.data.length = mask.data.length := by rw [a.length_data, mask.length_data, h]
  exact congrArg (fun n => [n]) (length_zip_filter hlen)

/-- The parts of `a` along its first dimension all hold the same number of
true values. -/
def Even (mask : NdArray Bool) : Prop :=
  match mask.shape with
  | [] => True
  | d :: shape => ∀ b ∈ blocks d shape.prod mask.data, b.count true = (mask.data.take shape.prod).count true

/-- Equal parts count for the whole. -/
theorem countTrue_of_even {mask f : NdArray Bool} (h : mask.Even) (hf : mask.first = some f) :
    mask.countTrue = f.countTrue * mask.shape.headD 0 := by
  obtain ⟨_ | ⟨_ | d, shape⟩, data, hlen⟩ := mask
  · cases hf
  · cases hf
  · cases hf
    have hparts : ∀ m ∈ (blocks (d + 1) shape.prod data).map (List.count true),
        m = (data.take shape.prod).count true := by
      intro m hm
      obtain ⟨b, hb, rfl⟩ := List.mem_map.mp hm
      exact h b hb
    rw [List.prod_cons] at hlen
    show data.count true = (data.take shape.prod).count true * (d + 1)
    calc data.count true = (blocks (d + 1) shape.prod data).flatten.count true := by
          rw [flatten_blocks _ _ hlen]
      _ = ((blocks (d + 1) shape.prod data).map (List.count true)).sum := List.count_flatten
      _ = (d + 1) * (data.take shape.prod).count true := by
          rw [List.sum_eq_card_nsmul _ _ hparts, List.length_map, length_blocks]
          rfl
      _ = (data.take shape.prod).count true * (d + 1) := Nat.mul_comm _ _

/-! ## Back in place -/

/-- The elements that a mask keeps. -/
def gather (l : List α) (mask : List Bool) : List α := ((l.zip mask).filter (·.2)).map (·.1)

/-- The elements of `l` in the places that the mask keeps, and zero elsewhere. -/
def scatter [Zero α] : List Bool → List α → List α
  | [], _ => []
  | false :: mask, l => 0 :: scatter mask l
  | true :: mask, l => l.headD 0 :: scatter mask l.tail

/-- `a[mask] = values`, for zeros `a` of the shape of the mask; there is nothing to assign when
the values are not one for each place, and not a single one. -/
def expand [Zero α] (mask : NdArray Bool) (values : NdArray α) : Option (NdArray α) :=
  (values.broadcastTo [mask.countTrue]).map fun l => ⟨mask.shape, scatter mask.data l.data, by
    rw [length_scatter, mask.length_data]⟩
where
  length_scatter : ∀ {mask : List Bool} {l : List α}, (scatter mask l).length = mask.length := by
    intro mask
    induction mask with
    | nil => exact rfl
    | cons m mask ih => cases m <;> exact congrArg Nat.succ ih

/-- The elements outside of the mask are zero. -/
def OnMask [Zero α] (mask : NdArray Bool) (a : NdArray α) : Prop :=
  ∀ p ∈ a.data.zip mask.data, p.2 = false → p.1 = 0

section Expand

variable [Zero α] {mask : NdArray Bool} {values a : NdArray α}

theorem gather_scatter : ∀ {mask : List Bool} {l : List α}, l.length = mask.count true →
    gather (scatter mask l) mask = l := by
  intro mask
  induction mask with
  | nil =>
    intro l h
    exact (List.length_eq_zero_iff.mp h).symm
  | cons m mask ih =>
    intro l h
    cases m with
    | false =>
      rw [List.count_cons_of_ne (by simp)] at h
      exact ih h
    | true =>
      rw [List.count_cons_self] at h
      cases l with
      | nil => cases h
      | cons x l => exact congrArg (x :: ·) (ih (Nat.succ.inj h))

theorem scatter_gather : ∀ {mask : List Bool} {l : List α}, l.length = mask.length →
    (∀ p ∈ l.zip mask, p.2 = false → p.1 = 0) → scatter mask (gather l mask) = l := by
  intro mask
  induction mask with
  | nil =>
    intro l h _
    exact (List.length_eq_zero_iff.mp h).symm
  | cons m mask ih =>
    intro l h hzero
    cases l with
    | nil => cases h
    | cons x l =>
      have htail := ih (Nat.succ.inj h) fun p hp => hzero p (List.mem_cons_of_mem _ hp)
      cases m with
      | false =>
        have hx : x = 0 := hzero (x, false) List.mem_cons_self rfl
        rw [hx]
        exact congrArg (0 :: ·) htail
      | true => exact congrArg (x :: ·) htail

theorem scatter_outside : ∀ {mask : List Bool} {l : List α}, ∀ p ∈ (scatter mask l).zip mask, p.2 = false → p.1 = 0 := by
  intro mask
  induction mask with
  | nil =>
    intro l p hp
    cases hp
  | cons m mask ih =>
    intro l p hp hfalse
    cases m with
    | false =>
      obtain rfl | hp := List.mem_cons.mp hp
      · rfl
      · exact ih p hp hfalse
    | true =>
      obtain rfl | hp := List.mem_cons.mp hp
      · cases hfalse
      · exact ih p hp hfalse

/-- Values that are one for each place go there. -/
theorem expand_of_shape (h : values.shape = [mask.countTrue]) :
    ∃ a, expand mask values = some a ∧ a.shape = mask.shape ∧ a.data = scatter mask.data values.data := by
  obtain ⟨l, hl, hdata⟩ := Option.map_eq_some_iff.mp (broadcastData_self h)
  unfold expand broadcastTo
  rw [hl]
  exact ⟨_, rfl, rfl, congrArg _ hdata⟩

theorem expand_ok (h : expand mask values = some a) : a.shape = mask.shape ∧ OnMask mask a := by
  obtain ⟨l, -, rfl⟩ := Option.map_eq_some_iff.mp h
  exact ⟨rfl, scatter_outside⟩

theorem compress_expand (hvalues : values.shape = [mask.countTrue]) (h : expand mask values = some a) :
    compress mask a = values := by
  obtain ⟨a', ha', -, hdata⟩ := expand_of_shape hvalues
  cases h.symm.trans ha'
  obtain ⟨shape, l, hl⟩ := values
  cases hvalues
  have hgather : gather a.data mask.data = l := by
    rw [hdata]
    exact gather_scatter (hl.trans List.prod_singleton)
  have hlen : l.length = mask.countTrue := hl.trans List.prod_singleton
  show ofList (gather a.data mask.data) = _
  rw [hgather]
  unfold ofList
  simp only [hlen]

theorem expand_compress (hshape : a.shape = mask.shape) (ha : OnMask mask a) : expand mask (compress mask a) = some a := by
  obtain ⟨b, hb, hbshape, hbdata⟩ := expand_of_shape (shape_compress hshape)
  rw [hb]
  have hlen : a.data.length = mask.data.length := by rw [a.length_data, mask.length_data, hshape]
  have hdata : b.data = a.data := hbdata.trans (scatter_gather hlen ha)
  obtain ⟨_, _, _⟩ := a
  obtain ⟨_, _, _⟩ := b
  cases hdata
  cases hbshape.trans hshape.symm
  rfl

end Expand

end NdArray

end Catkit2
