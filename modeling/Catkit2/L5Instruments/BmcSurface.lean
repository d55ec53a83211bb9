import Mathlib.Algebra.Order.Floor.Ring
import Mathlib.Data.Rat.Floor
import Mathlib.Tactic.NormNum

/-!
# The reported surface (catkit2/base_services/bmc_deformable_mirror.py)

`send_surface` sets the surface, hands it to the device, and publishes two
frames: the surface and the voltages. Three quantities are computed from the
surface when they are asked for, and kept until the surface is set again; a
device that reads some of them first must not change what is published.

Arithmetic is exact, over any ordered field in which numbers have a floor. All
arrays have an entry for each actuator. A subclass's `send_to_device` is the
list of properties it reads, and whether it raises.

* `sendSurface_eq`: what a call publishes, whatever was kept from earlier ones.
* `clipped_eq_iff`: when the voltages are those of the requested surface.
* `frames_agree_iff`: both frames describe one mirror exactly when the bit
  depth is given or no actuator saturates.
-/
namespace Catkit2.L5.Bmc

variable {ι K : Type} [Field K] [LinearOrder K]

structure BmcDeformableMirror (ι K : Type) [Field K] [LinearOrder K] where
  flatMap : ι → K
  gainMap : ι → K
  maxVolts : K
  dacBitDepth : Option Nat
  maxVolts_pos : 0 < maxVolts

/-- The attributes behind the properties, `None` at first and where a cache is empty. -/
structure Attributes (ι K : Type) where
  _surface : Option (ι → K)
  _voltages : Option (ι → K)
  _discretized_voltages : Option (ι → K)
  _discretized_surface : Option (ι → K)

/-- A property that `send_to_device` reads. -/
inductive Property where
  | surface | voltages | discretizedVoltages | discretizedSurface
  deriving DecidableEq, Repr

/-- A call of `send_surface`, and what `send_to_device` does in it. -/
structure Call (ι K : Type) where
  surface : ι → K
  reads : List Property
  raises : Bool

/-- The frames of `total_surface` and `total_voltage`. -/
structure Frames (ι K : Type) where
  totalSurface : ι → K
  totalVoltage : ι → K

/-- mirrors catkit2/services/bmc_deformable_mirror_sim/bmc_deformable_mirror_sim.py:11-13 -/
def simReads : List Property := [.discretizedSurface]

/-- mirrors catkit2/services/bmc_deformable_mirror_hardware/bmc_deformable_mirror_hardware.py:48-57 -/
def hardwareReads : List Property := [.voltages]

/-- `np.clip(v, 0, 1)` -/
def clip (v : K) : K := min (max v 0) 1

namespace BmcDeformableMirror

/-- An actuator whose gain is not taken for zero. -/
def Live (m : BmcDeformableMirror ι K) (i : ι) : Prop := ¬ |m.gainMap i| < 1 / 10 ^ 10

instance (m : BmcDeformableMirror ι K) (i : ι) : Decidable (m.Live i) :=
  inferInstanceAs (Decidable (¬ _))

/-- mirrors catkit2/base_services/bmc_deformable_mirror.py:29-31 -/
def gainMapInv (m : BmcDeformableMirror ι K) (i : ι) : K := if m.Live i then 1 / m.gainMap i else 0

/-- mirrors catkit2/base_services/bmc_deformable_mirror.py:70-76 -/
def setSurface (a : Attributes ι K) (surface : ι → K) : Attributes ι K :=
  { a with
    _surface := some surface
    _voltages := none
    _discretized_surface := none
    _discretized_voltages := none }

/-- The right-hand side that `voltages` computes. -/
def clipped (m : BmcDeformableMirror ι K) (surface : ι → K) (i : ι) : K :=
  clip ((m.flatMap i + surface i * m.gainMapInv i) / m.maxVolts)

/-- The value and the attributes after; `none` where `None` is used as an array.
mirrors catkit2/base_services/bmc_deformable_mirror.py:78-86 -/
def voltages (m : BmcDeformableMirror ι K) (a : Attributes ι K) : Option ((ι → K) × Attributes ι K) :=
  match a._voltages with
  | some v => some (v, a)
  | none => do
    let surface ← a._surface
    return (m.clipped surface, { a with _voltages := some (m.clipped surface) })

theorem voltages_eq {m : BmcDeformableMirror ι K} {surface : ι → K} {a : Attributes ι K}
    (hs : a._surface = some surface)
    (hv : ∀ v, a._voltages = some v → v = m.clipped surface) :
    m.voltages a = some (m.clipped surface, { a with _voltages := some (m.clipped surface) }) := by
  obtain ⟨_, v, _, _⟩ := a
  cases hs
  cases v with
  | none => rfl
  | some v =>
    obtain rfl := hv v rfl
    rfl

variable [FloorRing K]

/-- `np.floor(v * 2**n) / 2**n` -/
def toDac (n : Nat) (v : K) : K := (⌊v * 2 ^ n⌋ : K) / 2 ^ n

/-- mirrors catkit2/base_services/bmc_deformable_mirror.py:88-96 -/
def discretizedVoltages (m : BmcDeformableMirror ι K) (a : Attributes ι K) :
    Option ((ι → K) × Attributes ι K) :=
  match a._discretized_voltages with
  | some v => some (v, a)
  | none => do
    let (v, a) ← m.voltages a
    let a := { a with _discretized_voltages := some v }
    match m.dacBitDepth with
    | none => return (v, a)
    | some n =>
      let (v, a) ← m.voltages a
      let v := fun i => toDac n (v i)
      return (v, { a with _discretized_voltages := some v })

/-- The surface of voltages. -/
def surfaceOf (m : BmcDeformableMirror ι K) (v : ι → K) (i : ι) : K :=
  (v i * m.maxVolts - m.flatMap i) * m.gainMap i

/-- mirrors catkit2/base_services/bmc_deformable_mirror.py:98-106 -/
def discretizedSurface (m : BmcDeformableMirror ι K) (a : Attributes ι K) :
    Option ((ι → K) × Attributes ι K) :=
  match a._discretized_surface with
  | some s => some (s, a)
  | none => do
    let surface ← a._surface
    let a := { a with _discretized_surface := some surface }
    match m.dacBitDepth with
    | none => return (surface, a)
    | some _ =>
      let (v, a) ← m.discretizedVoltages a
      return (m.surfaceOf v, { a with _discretized_surface := some (m.surfaceOf v) })

def read (m : BmcDeformableMirror ι K) (a : Attributes ι K) : Property → Option (Attributes ι K)
  | .surface => some a
  | .voltages => (m.voltages a).map Prod.snd
  | .discretizedVoltages => (m.discretizedVoltages a).map Prod.snd
  | .discretizedSurface => (m.discretizedSurface a).map Prod.snd

/-- What the device reads, one after the other. -/
def readAll (m : BmcDeformableMirror ι K) (a : Attributes ι K) (reads : List Property) :
    Option (Attributes ι K) := reads.foldlM m.read a

/-- The frames that a call publishes, if it gets there.
mirrors catkit2/base_services/bmc_deformable_mirror.py:42-57 -/
def sendSurface (m : BmcDeformableMirror ι K) (a : Attributes ι K) (c : Call ι K) :
    Option (Frames ι K) × Attributes ι K :=
  let a := setSurface a c.surface
  match m.readAll a c.reads with
  | none => (none, a)
  | some a =>
    if c.raises then (none, a)
    else
      match m.discretizedSurface a with
      | none => (none, a)
      | some (s, a) =>
        match m.discretizedVoltages a with
        | none => (none, a)
        | some (v, a) => (some ⟨s, v⟩, a)

/-- The calls of a session that publish, each with its frames. -/
def session (m : BmcDeformableMirror ι K) : Attributes ι K → List (Call ι K) → List (Call ι K × Frames ι K)
  | _, [] => []
  | a, c :: calls =>
    match m.sendSurface a c with
    | (some f, a) => (c, f) :: session m a calls
    | (none, a) => session m a calls

/-! ## What the caches hold -/

/-- The voltages that the device can be told for a surface. -/
def commanded (m : BmcDeformableMirror ι K) (surface : ι → K) (i : ι) : K :=
  match m.dacBitDepth with
  | none => m.clipped surface i
  | some n => toDac n (m.clipped surface i)

/-- The surface that is reported for a surface. -/
def reported (m : BmcDeformableMirror ι K) (surface : ι → K) : ι → K :=
  match m.dacBitDepth with
  | none => surface
  | some _ => m.surfaceOf (m.commanded surface)

/-- The attributes are those of `surface`, but for the cached surface. -/
structure Cached (m : BmcDeformableMirror ι K) (surface : ι → K) (a : Attributes ι K) : Prop where
  isSet : a._surface = some surface
  volts : ∀ v, a._voltages = some v → v = m.clipped surface
  dacVolts : ∀ v, a._discretized_voltages = some v → v = m.commanded surface

/-- The invariant of a call, once the surface is set. -/
structure Inv (m : BmcDeformableMirror ι K) (surface : ι → K) (a : Attributes ι K) : Prop
    extends Cached m surface a where
  dacSurface : ∀ s, a._discretized_surface = some s → s = m.reported surface

variable {m : BmcDeformableMirror ι K} {surface : ι → K} {a : Attributes ι K}

theorem inv_setSurface (m : BmcDeformableMirror ι K) (a : Attributes ι K) (surface : ι → K) :
    Inv m surface (setSurface a surface) :=
  ⟨⟨rfl, fun _ h => (nomatch h), fun _ h => (nomatch h)⟩, fun _ h => (nomatch h)⟩

theorem discretizedVoltages_eq (h : Cached m surface a) :
    ∃ a', m.discretizedVoltages a = some (m.commanded surface, a') ∧ Cached m surface a' ∧
      a'._discretized_surface = a._discretized_surface := by
  cases hd : a._discretized_voltages with
  | some v =>
    obtain rfl := h.dacVolts v hd
    refine ⟨a, ?_, h, rfl⟩
    unfold discretizedVoltages
    rw [hd]
  | none =>
    let a' : Attributes ι K :=
      { a with
        _voltages := some (m.clipped surface)
        _discretized_voltages := some (m.commanded surface) }
    have hc : Cached m surface a' :=
      ⟨h.isSet, fun v hv => (Option.some.inj hv).symm, fun v hv => (Option.some.inj hv).symm⟩
    refine ⟨a', ?_, hc, rfl⟩
    unfold discretizedVoltages
    rw [hd, voltages_eq h.isSet h.volts]
    cases hn : m.dacBitDepth with
    | none =>
      have hcommanded : m.clipped surface = m.commanded surface := by
        funext i
        rw [commanded, hn]
      rw [← hcommanded]
      exact congrArg (fun v => some (m.clipped surface, { a' with _discretized_voltages := some v })) hcommanded
    | some n =>
      have hcommanded : (fun i => toDac n (m.clipped surface i)) = m.commanded surface := by
        funext i
        rw [commanded, hn]
      -- the second time the cache holds the voltages
      have hagain := voltages_eq (m := m) (a := { a' with _discretized_voltages := some (m.clipped surface) })
        h.isSet fun v hv => (Option.some.inj hv).symm
      simp only [Option.bind_eq_bind, Option.bind_some]
      rw [hagain]
      exact congrArg (fun v => some (v, { a' with _discretized_voltages := some v })) hcommanded

theorem discretizedSurface_eq (h : Inv m surface a) :
    ∃ a', m.discretizedSurface a = some (m.reported surface, a') ∧ Inv m surface a' := by
  cases hd : a._discretized_surface with
  | some s =>
    obtain rfl := h.dacSurface s hd
    refine ⟨a, ?_, h⟩
    unfold discretizedSurface
    rw [hd]
  | none =>
    cases hn : m.dacBitDepth with
    | none =>
      have hreported : surface = m.reported surface := by rw [reported, hn]
      refine ⟨{ a with _discretized_surface := some surface }, ?_, ⟨h.isSet, h.volts, h.dacVolts⟩, ?_⟩
      · unfold discretizedSurface
        rw [hd, h.isSet, hn, ← hreported]
        rfl
      · intro s hs
        exact (Option.some.inj hs).symm.trans hreported
    | some n =>
      have hreported : m.surfaceOf (m.commanded surface) = m.reported surface := by rw [reported, hn]
      -- the cache holds the requested surface while the voltages are computed
      have hmid : Cached m surface { a with _discretized_surface := some surface } :=
        ⟨h.isSet, h.volts, h.dacVolts⟩
      obtain ⟨a', ha', hc, -⟩ := discretizedVoltages_eq hmid
      refine ⟨{ a' with _discretized_surface := some (m.reported surface) }, ?_,
        ⟨hc.isSet, hc.volts, hc.dacVolts⟩, ?_⟩
      · unfold discretizedSurface
        rw [hd, h.isSet, hn]
        simp only [Option.bind_eq_bind, Option.bind_some]
        rw [← h.isSet] at ha' ⊢
        rw [ha', ← hreported]
        rfl
      · intro s hs
        exact (Option.some.inj hs).symm

/-- **Reading** a property keeps the invariant. -/
theorem read_inv (h : Inv m surface a) (r : Property) : ∃ a', m.read a r = some a' ∧ Inv m surface a' := by
  cases r with
  | surface => exact ⟨a, rfl, h⟩
  | voltages =>
    have hc : Cached m surface { a with _voltages := some (m.clipped surface) } :=
      ⟨h.isSet, fun v hv => (Option.some.inj hv).symm, h.dacVolts⟩
    exact ⟨_, congrArg (Option.map Prod.snd) (voltages_eq h.isSet h.volts), hc, h.dacSurface⟩
  | discretizedVoltages =>
    obtain ⟨a', ha', hc, hd⟩ := discretizedVoltages_eq h.toCached
    exact ⟨a', by rw [read, ha']; rfl, hc, fun s hs => h.dacSurface s (hd.symm.trans hs)⟩
  | discretizedSurface =>
    obtain ⟨a', ha', h'⟩ := discretizedSurface_eq h
    exact ⟨a', by rw [read, ha']; rfl, h'⟩

theorem readAll_inv (reads : List Property) : ∀ {a : Attributes ι K}, Inv m surface a →
    ∃ a', m.readAll a reads = some a' ∧ Inv m surface a' := by
  induction reads with
  | nil => exact fun h => ⟨_, rfl, h⟩
  | cons r reads ih =>
    intro a h
    obtain ⟨a₁, h1, hinv⟩ := read_inv h r
    obtain ⟨a₂, h2, hinv⟩ := ih hinv
    refine ⟨a₂, ?_, hinv⟩
    rw [readAll, List.foldlM_cons, h1]
    exact h2

/-- **One call** publishes the frames of its own surface, whatever the
attributes were, unless the device raises. -/
theorem sendSurface_eq (m : BmcDeformableMirror ι K) (a : Attributes ι K) (c : Call ι K) :
    (m.sendSurface a c).1 =
      if c.raises then none else some ⟨m.reported c.surface, m.commanded c.surface⟩ := by
  obtain ⟨a₁, h1, hinv⟩ := readAll_inv c.reads (inv_setSurface m a c.surface)
  obtain ⟨a₂, h2, hinv⟩ := discretizedSurface_eq hinv
  obtain ⟨a₃, h3, -⟩ := discretizedVoltages_eq hinv.toCached
  unfold sendSurface
  simp only [h1]
  split
  · rfl
  · simp only [h2, h3]

/-- **A session** publishes for each call that does not raise, in order. -/
theorem session_eq (m : BmcDeformableMirror ι K) (calls : List (Call ι K)) : ∀ a : Attributes ι K,
    m.session a calls = (calls.filter (!·.raises)).map fun c =>
      (c, ⟨m.reported c.surface, m.commanded c.surface⟩) := by
  induction calls with
  | nil => exact fun _ => rfl
  | cons c calls ih =>
    intro a
    have h := sendSurface_eq m a c
    unfold session
    generalize m.sendSurface a c = r at h
    obtain ⟨f, a'⟩ := r
    simp only at h
    subst h
    cases hr : c.raises with
    | true =>
      rw [List.filter_cons_of_neg (by rw [hr]; decide)]
      exact ih a'
    | false =>
      rw [List.filter_cons_of_pos (by rw [hr]; decide), List.map_cons]
      exact congrArg _ (ih a')

end BmcDeformableMirror

/-! ## Exact arithmetic -/

section Exact

variable [IsStrictOrderedRing K]

theorem clip_mem (v : K) : 0 ≤ clip v ∧ clip v ≤ 1 :=
  ⟨le_min (le_max_right v 0) zero_le_one, min_le_right _ _⟩

theorem clip_eq_iff (v : K) : clip v = v ↔ 0 ≤ v ∧ v ≤ 1 := by
  constructor
  · intro h
    rw [← h]
    exact clip_mem v
  · rintro ⟨h0, h1⟩
    rw [clip, max_eq_left h0, min_eq_left h1]

theorem toDac_mem [FloorRing K] (n : Nat) {v : K} (h : 0 ≤ v ∧ v ≤ 1) :
    0 ≤ BmcDeformableMirror.toDac n v ∧ BmcDeformableMirror.toDac n v ≤ 1 := by
  have hpow : (0 : K) < 2 ^ n := pow_pos two_pos n
  have h0 : (0 : K) ≤ (⌊v * 2 ^ n⌋ : K) := by
    exact_mod_cast Int.floor_nonneg.mpr (mul_nonneg h.1 hpow.le)
  have h1 : (⌊v * 2 ^ n⌋ : K) ≤ 2 ^ n := by
    calc (⌊v * 2 ^ n⌋ : K) ≤ v * 2 ^ n := Int.floor_le _
      _ ≤ 1 * 2 ^ n := mul_le_mul_of_nonneg_right h.2 hpow.le
      _ = 2 ^ n := one_mul _
  exact ⟨div_nonneg h0 hpow.le, (div_le_one hpow).mpr h1⟩

namespace BmcDeformableMirror

theorem Live.gain_ne_zero {m : BmcDeformableMirror ι K} {i : ι} (h : m.Live i) : m.gainMap i ≠ 0 := by
  intro h0
  apply h
  rw [h0, abs_zero]
  positivity

/-- No actuator needs a voltage that the device does not have. -/
def Unsaturated (m : BmcDeformableMirror ι K) (surface : ι → K) : Prop :=
  ∀ i, m.Live i → 0 ≤ m.flatMap i + surface i / m.gainMap i ∧ m.flatMap i + surface i / m.gainMap i ≤ m.maxVolts

/-- **Clipping.** The clipped voltage of an actuator makes the requested
surface exactly when there was nothing to clip. -/
theorem clipped_eq_iff {m : BmcDeformableMirror ι K} {i : ι} (h : m.Live i) (surface : ι → K) :
    surface i = m.surfaceOf (m.clipped surface) i ↔
      0 ≤ m.flatMap i + surface i / m.gainMap i ∧ m.flatMap i + surface i / m.gainMap i ≤ m.maxVolts := by
  have hgain := h.gain_ne_zero
  have hmax := m.maxVolts_pos
  have hv : m.clipped surface i = clip ((m.flatMap i + surface i / m.gainMap i) / m.maxVolts) := by
    rw [clipped, gainMapInv, if_pos h, mul_one_div]
  generalize hw : m.flatMap i + surface i / m.gainMap i = w at hv
  have hs : surface i = (w / m.maxVolts * m.maxVolts - m.flatMap i) * m.gainMap i := by
    rw [div_mul_cancel₀ w hmax.ne', ← hw, add_sub_cancel_left, div_mul_cancel₀ _ hgain]
  have hrange : (0 ≤ w / m.maxVolts ∧ w / m.maxVolts ≤ 1) ↔ 0 ≤ w ∧ w ≤ m.maxVolts := by
    rw [div_le_one hmax, le_div_iff₀ hmax, zero_mul]
  rw [surfaceOf, hv, ← hrange, ← clip_eq_iff]
  constructor
  · intro he
    have he := mul_right_cancel₀ hgain (hs.symm.trans he)
    exact (mul_right_cancel₀ hmax.ne' (sub_left_injective he)).symm
  · intro he
    rw [he]
    exact hs

variable [FloorRing K]

theorem commanded_mem (m : BmcDeformableMirror ι K) (surface : ι → K) (i : ι) :
    0 ≤ m.commanded surface i ∧ m.commanded surface i ≤ 1 := by
  unfold commanded
  split
  · exact clip_mem _
  · exact toDac_mem _ (clip_mem _)

/-- The frames are of the state of one mirror, the one that was commanded for `surface`. -/
structure SameState (m : BmcDeformableMirror ι K) (surface : ι → K) (f : Frames ι K) : Prop where
  commanded : f.totalVoltage = m.commanded surface
  range : ∀ i, 0 ≤ f.totalVoltage i ∧ f.totalVoltage i ≤ 1
  state : ∀ i, m.Live i → f.totalSurface i = (f.totalVoltage i * m.maxVolts - m.flatMap i) * m.gainMap i

/-- The frames that are reported for a surface. -/
theorem sameState_iff (m : BmcDeformableMirror ι K) (surface : ι → K) :
    SameState m surface ⟨m.reported surface, m.commanded surface⟩ ↔
      m.dacBitDepth ≠ none ∨ m.Unsaturated surface := by
  cases hn : m.dacBitDepth with
  | none =>
    have hcommanded : m.commanded surface = m.clipped surface := by
      funext i
      rw [commanded, hn]
    have hreported : m.reported surface = surface := by rw [reported, hn]
    constructor
    · intro h
      refine .inr fun i hi => (clipped_eq_iff hi surface).mp ?_
      have hstate := h.state i hi
      rw [hreported, hcommanded] at hstate
      exact hstate
    · intro h
      have hunsaturated := h.resolve_left (not_not_intro rfl)
      refine ⟨rfl, m.commanded_mem surface, fun i hi => ?_⟩
      rw [hreported, hcommanded]
      exact (clipped_eq_iff hi surface).mpr (hunsaturated i hi)
  | some n =>
    refine iff_of_true ⟨rfl, m.commanded_mem surface, fun i _ => ?_⟩ (.inl (Option.some_ne_none n))
    rw [reported, hn]
    rfl

/-- **Both frames** of every call in a session describe one mirror state, the
one commanded for the surface of that call, exactly when the bit depth is
given or no live actuator saturates. Every call publishes, unless the device raises. -/
theorem frames_agree_iff (m : BmcDeformableMirror ι K) (a : Attributes ι K) (calls : List (Call ι K)) :
    (m.session a calls).map Prod.fst = calls.filter (!·.raises) ∧
    ∀ e ∈ m.session a calls,
      SameState m e.1.surface e.2 ↔ m.dacBitDepth ≠ none ∨ m.Unsaturated e.1.surface := by
  rw [session_eq]
  constructor
  · rw [List.map_map]
    exact List.map_id _
  · intro e he
    obtain ⟨c, -, rfl⟩ := List.mem_map.mp he
    exact sameState_iff m c.surface

end BmcDeformableMirror

end Exact

/-- One actuator that goes from 0 to 1. -/
def unitMirror (dacBitDepth : Option Nat) : BmcDeformableMirror Unit ℚ :=
  ⟨fun _ => 0, fun _ => 1, 1, dacBitDepth, one_pos⟩

/-- As `__init__` leaves them. -/
def noAttributes : Attributes Unit ℚ := ⟨none, none, none, none⟩

/-- The simulated mirror is asked for twice what it can do. -/
def saturating : List (Call Unit ℚ) := [⟨fun _ => 2, simReads, false⟩]

theorem frames_agree_unit :
    ∃ e, e ∈ (unitMirror (some 8)).session noAttributes (⟨fun _ => 3, hardwareReads, false⟩ :: saturating) ∧
      (unitMirror (some 8)).SameState e.1.surface e.2 := by
  have hmem := List.exists_mem_of_ne_nil
    ((unitMirror (some 8)).session noAttributes (⟨fun _ => 3, hardwareReads, false⟩ :: saturating))
    (by rw [BmcDeformableMirror.session_eq]; exact List.cons_ne_nil _ _)
  obtain ⟨e, he⟩ := hmem
  exact ⟨e, he, (((unitMirror (some 8)).frames_agree_iff noAttributes _).2 e he).mpr
    (.inl (Option.some_ne_none 8))⟩

/-- Without a bit depth, the voltage is 1 and the surface reported is 2. -/
theorem saturated_surface_reported :
    ((unitMirror none).session noAttributes saturating).map
      (fun e => (e.2.totalSurface (), e.2.totalVoltage ())) = [(2, 1)] ∧
    ¬ ∀ (m : BmcDeformableMirror Unit ℚ) (calls : List (Call Unit ℚ)),
      ∀ e ∈ m.session noAttributes calls, m.SameState e.1.surface e.2 := by
  have hlive : (unitMirror none).Live () := by
    show ¬ |(1 : ℚ)| < 1 / 10 ^ 10
    norm_num
  have hvolts : (unitMirror none).clipped (fun _ => 2) () = 1 := by
    rw [BmcDeformableMirror.clipped, BmcDeformableMirror.gainMapInv, if_pos hlive]
    norm_num [unitMirror, clip]
  have hsession : (unitMirror none).session noAttributes saturating =
      [(⟨fun _ => 2, simReads, false⟩, ⟨fun _ => 2, (unitMirror none).clipped fun _ => 2⟩)] :=
    (unitMirror none).session_eq saturating noAttributes
  refine ⟨?_, fun h => ?_⟩
  · rw [hsession]
    simp only [List.map_cons, List.map_nil, hvolts]
  · have hstate := (h (unitMirror none) saturating _ (hsession ▸ List.mem_cons_self)).state () hlive
    simp only [hvolts] at hstate
    norm_num [unitMirror] at hstate

end Catkit2.L5.Bmc
