import Catkit2.Core.Except
import Catkit2.Core.NdArray
import Mathlib.Algebra.Ring.Int.Defs
import Mathlib.Data.List.GetD
import Mathlib.Logic.Function.Basic

/-!
# Flattening channels (catkit2/testbed/proxies/deformable_mirror.py, base_services/deformable_mirror.py)

The service and the proxy read the same file with the actuator mask. The
service adds a first dimension to a mask of two, so that the mask is a stack
of DMs; the proxy takes the mask as it is. From it the service computes how
long its commands are, and the proxy how many zeros it sends.

Every data stream here holds `float64`, as do the arrays that are submitted,
all in C order, so that the shape is what `submit_data` checks. Python's
`str.lower` is `lower`.

* `uniform_submitAll`, `latest_channel`: what holds of the channels in any
  state in which clients may have left them.
* `toCommand_zeros_iff`: when the zeros of the proxy make a command.
* `flatten_channels_iff`: `flatten_channels` does what it says exactly then.
-/
namespace Catkit2.L5.DmChannels

/-- What a call raises. -/
inductive DmError where
  | valueError (what : String)
  | runtimeError (what : String)
  | attributeError (what : String)
  /-- `index 0 is out of bounds for axis 0 with size 0` -/
  | indexError
  /-- numpy cannot broadcast an operand. -/
  | broadcastError
  /-- Something else is used as a data stream. -/
  | noDataStream
  deriving DecidableEq, Repr

/-! ## Data streams -/

/-- The frames that were submitted, the newest first. -/
structure DataStream (α : Type) where
  shape : List Nat
  frames : List (NdArray α)

abbrev Streams (α : Type) := String → Option (DataStream α)

section Streams

variable {α : Type}

def DataStream.get (s : DataStream α) : Except DmError (NdArray α) :=
  match s.frames with
  | [] => .error (.runtimeError "DataStream does not have any frames when trying to get the latest one.")
  | f :: _ => .ok f

def DataStream.submitData (s : DataStream α) (data : NdArray α) : Except DmError (DataStream α) :=
  if data.shape = s.shape then .ok { s with frames := data :: s.frames }
  else .error (.runtimeError "Incompatible array shape.")

/-- `Service.make_data_stream` -/
def makeDataStream (streams : Streams α) (name : String) (shape : List Nat) : Streams α :=
  Function.update streams name (some ⟨shape, []⟩)

/-- A client submits to a data stream; what is not accepted changes nothing. -/
def submit (streams : Streams α) (s : String × NdArray α) : Streams α :=
  match streams s.1 with
  | none => streams
  | some stream =>
    match stream.submitData s.2 with
    | .ok stream => Function.update streams s.1 (some stream)
    | .error _ => streams

def submitAll (streams : Streams α) (submissions : List (String × NdArray α)) : Streams α :=
  submissions.foldl submit streams

end Streams

/-! ## The service -/

structure DeformableMirrorService (α : Type) where
  deviceActuatorMask : NdArray Bool
  numDms : Nat
  dmShape : List Nat
  numActuators : Nat
  streams : Streams α

section Service

variable {α : Type} [Zero α] (lower : String → String) (serviceId : String)

/-- `startupMap` is the `COMMAND` of the channel's startup map, if it has one.
mirrors catkit2/base_services/deformable_mirror.py:49-74 -/
def addChannel (startupMap : String → Option (NdArray α)) (dmCommandLength : Nat) (streams : Streams α)
    (channelName : String) : Except DmError (Streams α) := do
  let streams := makeDataStream streams (lower channelName) [dmCommandLength]
  let stream : DataStream α := ⟨[dmCommandLength], []⟩
  let stream ← stream.submitData ((startupMap channelName).getD (.zeros dmCommandLength))
  return Function.update streams (lower channelName) (some stream)

/-- The mask as a stack of DMs.
mirrors catkit2/base_services/deformable_mirror.py:19-26 -/
def stackOfDms (fits : Option (NdArray Bool)) : Except DmError (NdArray Bool) :=
  match fits with
  | none => .error (.valueError ("Need to provide device actuator mask for " ++ serviceId))
  | some mask =>
    if mask.ndim ≤ 1 then .error (.valueError ("The provided device actuator mask needs for " ++ serviceId ++
      " to be at least a 2D array."))
    else if mask.ndim = 2 then .ok mask.expandDims
    else .ok mask

/-- `fits` is what the file `device_actuator_mask_fname` holds, `none` when
the configuration names none.
mirrors catkit2/base_services/deformable_mirror.py:9-37 -/
def DeformableMirrorService.init (fits : Option (NdArray Bool)) (channels : List String)
    (startupMap : String → Option (NdArray α)) : Except DmError (DeformableMirrorService α) := do
  let mask ← stackOfDms serviceId fits
  match mask.first with
  | none => .error .indexError
  | some dm =>
    let numActuators := dm.countTrue
    let numDms := mask.shape.headD 0
    let dmCommandLength := numActuators * numDms
    let streams ← channels.foldlM (addChannel lower startupMap dmCommandLength) fun _ => none
    let streams := makeDataStream streams "total_voltage" [dmCommandLength]
    let streams := makeDataStream streams "total_surface" [dmCommandLength]
    return ⟨mask, numDms, dm.shape, numActuators, streams⟩

/-- mirrors catkit2/base_services/deformable_mirror.py:39-43 -/
def DeformableMirrorService.dmCommandLength (s : DeformableMirrorService α) : Nat := s.numActuators * s.numDms

end Service

/-! ## The proxy -/

/-- The mask in the file, and the names that Python finds before the data
streams: attributes of the object, then properties, then commands. -/
structure DeformableMirrorProxy where
  serviceId : String
  fits : NdArray Bool
  isAttribute : String → Bool
  propertyNames : List String
  commandNames : List String

/-- `str` of a tuple of integers. -/
def tupleStr : List Nat → String
  | [] => "()"
  | [n] => "(" ++ toString n ++ ",)"
  | ns => "(" ++ String.intercalate ", " (ns.map toString) ++ ")"

/-- `channel_names : list of str, or str` -/
inductive ChannelNames where
  | str (name : String)
  | list (names : List String)

def ChannelNames.toList : ChannelNames → List String
  | .str name => [name]
  | .list names => names

/-- `summed_command`, which starts as the integer 0. -/
inductive Summed (α : Type) where
  | int0
  | array (a : NdArray α)

namespace DeformableMirrorProxy

variable {α : Type} (p : DeformableMirrorProxy)

/-- mirrors catkit2/testbed/proxies/deformable_mirror.py:9-20 -/
def deviceActuatorMask : Except DmError (NdArray Bool) :=
  if p.fits.ndim ≤ 1 then .error (.valueError ("The provided device actuator mask needs for " ++ p.serviceId ++
    " to be at least a 2D array."))
  else .ok p.fits

/-- `getattr(self, name)`, used as a data stream.
mirrors catkit2/testbed/service_proxy.py:27-58 -/
def dataStream (streams : Streams α) (name : String) : Except DmError (DataStream α) :=
  if p.isAttribute name ∨ name ∈ p.propertyNames ∨ name ∈ p.commandNames then .error .noDataStream
  else
    match streams name with
    | some stream => .ok stream
    | none => .error (.attributeError
      ("'DeformableMirrorProxy' object has no attribute '" ++ name ++ "'."))

/-- `getattr(self, name).get()` -/
def latest (streams : Streams α) (name : String) : Except DmError (NdArray α) :=
  p.dataStream streams name >>= DataStream.get

/-- mirrors catkit2/testbed/proxies/deformable_mirror.py:81-101 -/
def dmMapsToCommand (dmMap : NdArray α) : Except DmError (NdArray α) := do
  let mask ← p.deviceActuatorMask
  match dmMap.broadcastTo mask.shape with
  | none => .error (.valueError ("Invalid shape for dm map: " ++ tupleStr dmMap.shape ++
      ". Expected shape: " ++ tupleStr mask.shape ++ "."))
  | some dmMap => .ok (NdArray.compress mask dmMap)

/-- The first half of `apply_shape`.
mirrors catkit2/testbed/proxies/deformable_mirror.py:131-136 -/
def toCommand (dmShape : NdArray α) : Except DmError (NdArray α) := do
  let mask ← p.deviceActuatorMask
  if dmShape.shape ≠ [mask.countTrue] then p.dmMapsToCommand dmShape
  else .ok dmShape

/-- mirrors catkit2/testbed/proxies/deformable_mirror.py:121-139 -/
def applyShape (streams : Streams α) (channel : String) (dmShape : NdArray α) :
    Except DmError (Streams α) := do
  let command ← p.toCommand dmShape
  let stream ← p.dataStream streams channel
  let stream ← stream.submitData command
  return Function.update streams channel (some stream)

/-- `self.num_actuators * self.num_dms`
mirrors catkit2/testbed/proxies/deformable_mirror.py:34-44 -/
def numZeros : Except DmError Nat := do
  let mask ← p.deviceActuatorMask
  match mask.first with
  | none => .error .indexError
  | some dm => .ok (dm.countTrue * mask.shape.headD 0)

variable [Add α] [Zero α]

/-- `summed_command += command` -/
def addCommand (summed : Summed α) (command : NdArray α) : Except DmError (Summed α) :=
  match summed with
  | .int0 => .ok (.array (command.map (0 + ·)))
  | .array a =>
    match a.addInPlace command with
    | some a => .ok (.array a)
    | none => .error .broadcastError

/-- One turn of the loop.
mirrors catkit2/testbed/proxies/deformable_mirror.py:74-76 -/
def flattenChannel (summed : Summed α) (streams : Streams α) (channelName : String) :
    Except DmError (Summed α × Streams α) := do
  let command ← p.latest streams channelName
  let summed ← addCommand summed command
  let n ← p.numZeros
  let streams ← p.applyShape streams channelName (.zeros n)
  return (summed, streams)

/-- What raises in a turn has left the channels as they were before it. -/
def flattenLoop : Summed α → Streams α → List String → Except DmError (Summed α) × Streams α
  | summed, streams, [] => (.ok summed, streams)
  | summed, streams, name :: names =>
    match p.flattenChannel summed streams name with
    | .error e => (.error e, streams)
    | .ok (summed, streams) => flattenLoop summed streams names

/-- mirrors catkit2/testbed/proxies/deformable_mirror.py:54-79 -/
def flattenChannels (streams : Streams α) (channelNames : ChannelNames) :
    Except DmError (Summed α) × Streams α :=
  p.flattenLoop .int0 streams channelNames.toList

end DeformableMirrorProxy

/-! ## The channels -/

section Channels

variable {α : Type} {len : Nat}

/-- Every stream is for commands of length `len`, and so is every frame in it. -/
def Uniform (len : Nat) (streams : Streams α) : Prop :=
  ∀ n s, streams n = some s → s.shape = [len] ∧ ∀ f ∈ s.frames, f.shape = [len]

def HasFrame (streams : Streams α) (n : String) : Prop := ∃ s, streams n = some s ∧ s.frames ≠ []

theorem submitData_ok {s s' : DataStream α} {data : NdArray α} :
    s.submitData data = .ok s' ↔ data.shape = s.shape ∧ s' = { s with frames := data :: s.frames } := by
  unfold DataStream.submitData
  split
  · rename_i h
    exact ⟨fun he => ⟨h, (Except.ok.inj he).symm⟩, fun he => congrArg Except.ok he.2.symm⟩
  · rename_i h
    exact iff_of_false (fun he => nomatch he) fun he => h he.1

theorem Uniform.update {streams : Streams α} (h : Uniform len streams) (n : String) {s : DataStream α}
    (hshape : s.shape = [len]) (hframes : ∀ f ∈ s.frames, f.shape = [len]) :
    Uniform len (Function.update streams n (some s)) := by
  intro m t hm
  by_cases hmn : m = n
  · rw [hmn, Function.update_self] at hm
    cases hm
    exact ⟨hshape, hframes⟩
  · rw [Function.update_of_ne hmn] at hm
    exact h m t hm

/-- A frame that is accepted has the length of the commands. -/
theorem Uniform.submitData {streams : Streams α} (h : Uniform len streams) {n : String} {s s' : DataStream α}
    {data : NdArray α} (hs : streams n = some s) (hsub : s.submitData data = .ok s') :
    Uniform len (Function.update streams n (some s')) := by
  obtain ⟨hdata, rfl⟩ := submitData_ok.mp hsub
  obtain ⟨hshape, hframes⟩ := h n s hs
  exact h.update n hshape (List.forall_mem_cons.mpr ⟨hdata.trans hshape, hframes⟩)

theorem HasFrame.update {streams : Streams α} {m : String} (h : HasFrame streams m) (n : String)
    {s : DataStream α} (hs : s.frames ≠ []) : HasFrame (Function.update streams n (some s)) m := by
  by_cases hmn : m = n
  · exact ⟨s, by rw [hmn, Function.update_self], hs⟩
  · obtain ⟨t, ht, hframes⟩ := h
    exact ⟨t, by rw [Function.update_of_ne hmn, ht], hframes⟩

theorem submit_keeps {streams : Streams α} (h : Uniform len streams) (s : String × NdArray α) :
    Uniform len (submit streams s) ∧ ∀ m, HasFrame streams m → HasFrame (submit streams s) m := by
  unfold submit
  split
  · exact ⟨h, fun _ hm => hm⟩
  · rename_i stream hstream
    split
    · rename_i stream' hsub
      refine ⟨h.submitData hstream hsub, fun m hm => hm.update s.1 ?_⟩
      rw [(submitData_ok.mp hsub).2]
      exact List.cons_ne_nil _ _
    · exact ⟨h, fun _ hm => hm⟩

/-- **Every state** that clients may leave the channels in. -/
theorem submitAll_keeps (submissions : List (String × NdArray α)) : ∀ {streams : Streams α},
    Uniform len streams → Uniform len (submitAll streams submissions) ∧
      ∀ m, HasFrame streams m → HasFrame (submitAll streams submissions) m := by
  induction submissions with
  | nil => exact fun h => ⟨h, fun _ hm => hm⟩
  | cons s submissions ih =>
    intro streams h
    obtain ⟨h1, hm1⟩ := submit_keeps h s
    obtain ⟨h2, hm2⟩ := ih h1
    exact ⟨h2, fun m hm => hm2 m (hm1 m hm)⟩

variable [Zero α] {lower : String → String} {serviceId : String} {startupMap : String → Option (NdArray α)}

theorem addChannel_keeps {streams streams' : Streams α} {name : String} (h : Uniform len streams)
    (hadd : addChannel lower startupMap len streams name = .ok streams') :
    Uniform len streams' ∧ HasFrame streams' (lower name) ∧
      ∀ m, HasFrame streams m → HasFrame streams' m := by
  obtain ⟨stream, hsub, hadd⟩ := bind_ok_iff.mp hadd
  obtain ⟨hdata, rfl⟩ := submitData_ok.mp hsub
  cases hadd
  unfold makeDataStream
  rw [Function.update_idem]
  refine ⟨h.update _ rfl ?_, ⟨_, Function.update_self .., List.cons_ne_nil _ _⟩,
    fun m hm => hm.update _ (List.cons_ne_nil _ _)⟩
  exact List.forall_mem_cons.mpr ⟨hdata, fun _ hf => absurd hf List.not_mem_nil⟩

theorem addChannels_keeps {channels : List String} {streams streams' : Streams α} (h : Uniform len streams)
    (hadd : channels.foldlM (addChannel lower startupMap len) streams = .ok streams') :
    Uniform len streams' ∧ ∀ m, m ∈ channels.map lower ∨ HasFrame streams m → HasFrame streams' m := by
  let R (channels : List String) (streams streams' : Streams α) : Prop := Uniform len streams →
    Uniform len streams' ∧ ∀ m, m ∈ channels.map lower ∨ HasFrame streams m → HasFrame streams' m
  refine foldlM_ok (R := R) ?_ ?_ channels hadd h
  · exact fun streams h => ⟨h, fun m hm => hm.resolve_left List.not_mem_nil⟩
  · intro name channels streams streams₁ streams' h1 ih h
    obtain ⟨hu, hname, hold⟩ := addChannel_keeps h h1
    obtain ⟨hu', hrest⟩ := ih hu
    refine ⟨hu', fun m hm => hrest m ?_⟩
    rcases hm with hm | hm
    · rcases List.mem_cons.mp hm with rfl | hm
      · exact .inr hname
      · exact .inl hm
    · exact .inr (hold m hm)

/-- What the service has made of the mask, and its streams. -/
theorem init_ok {fits : Option (NdArray Bool)} {channels : List String} {svc : DeformableMirrorService α}
    (h : DeformableMirrorService.init lower serviceId fits channels startupMap = .ok svc) :
    (∃ dm, stackOfDms serviceId fits = .ok svc.deviceActuatorMask ∧ svc.deviceActuatorMask.first = some dm ∧
      svc.dmCommandLength = dm.countTrue * svc.deviceActuatorMask.shape.headD 0) ∧
    Uniform svc.dmCommandLength svc.streams ∧
    ∀ m, m ∈ channels.map lower → m ≠ "total_voltage" → m ≠ "total_surface" → HasFrame svc.streams m := by
  obtain ⟨mask, hmask, h⟩ := bind_ok_iff.mp h
  split at h
  · cases h
  · rename_i dm hdm
    obtain ⟨streams, hadd, h⟩ := bind_ok_iff.mp h
    cases h
    have hnone : Uniform (dm.countTrue * mask.shape.headD 0) (fun _ => none : Streams α) := fun _ _ hn => nomatch hn
    obtain ⟨hu, hframe⟩ := addChannels_keeps hnone hadd
    have hnil : ∀ f ∈ ([] : List (NdArray α)), f.shape = [dm.countTrue * mask.shape.headD 0] :=
      fun _ hf => absurd hf List.not_mem_nil
    refine ⟨⟨dm, hmask, hdm, rfl⟩, (hu.update _ rfl hnil).update _ rfl hnil, ?_⟩
    intro m hm hvoltage hsurface
    obtain ⟨s, hs, hf⟩ := hframe m (.inl hm)
    refine ⟨s, ?_, hf⟩
    show makeDataStream (makeDataStream streams _ _) _ _ m = some s
    unfold makeDataStream
    rw [Function.update_of_ne hsurface, Function.update_of_ne hvoltage, hs]

end Channels

/-! ## One mask, two readings -/

section Mask

variable {α : Type} [Zero α] {serviceId : String}

/-- The service counts every actuator once, when its DMs have equally many. -/
theorem stackOfDms_length {fits : NdArray Bool} {stack dm : NdArray Bool}
    (h : stackOfDms serviceId (some fits) = .ok stack) (heven : stack.Even) (hdm : stack.first = some dm) :
    dm.countTrue * stack.shape.headD 0 = fits.countTrue := by
  rw [← NdArray.countTrue_of_even heven hdm]
  unfold stackOfDms at h
  simp only at h
  split at h
  · cases h
  · split at h
    · cases h
      rfl
    · cases h
      rfl

/-- A mask of two dimensions is one DM to the service and a stack of its rows
to the proxy: the actuators of the first row, as often as there are rows, are
all of them, or are broadcast along the rows. -/
def LengthAgrees (fits : NdArray Bool) : Prop :=
  ∀ rows cols, fits.shape = [rows, cols] → 0 < rows ∧
    ((fits.data.take cols).count true * rows = fits.countTrue ∨ (fits.data.take cols).count true * rows = cols)

theorem DeformableMirrorProxy.deviceActuatorMask_of_two {p : DeformableMirrorProxy} (h : 2 ≤ p.fits.ndim) :
    p.deviceActuatorMask = .ok p.fits := by
  unfold deviceActuatorMask
  rw [if_neg (by omega)]

/-- **The zeros** that the proxy sends for one row are a command exactly when
they are as many as there are actuators, or can be broadcast to the mask. -/
theorem toCommand_zeros {p : DeformableMirrorProxy} (h : 2 ≤ p.fits.ndim) (n : Nat) (c : NdArray α) :
    p.toCommand (.zeros n) = .ok c ↔ c = .zeros p.fits.countTrue ∧
      (n = p.fits.countTrue ∨ ∃ b, (NdArray.zeros n : NdArray α).broadcastTo p.fits.shape = some b) := by
  have hmask := DeformableMirrorProxy.deviceActuatorMask_of_two h
  have hshape : (NdArray.zeros n : NdArray α).shape = [p.fits.countTrue] ↔ n = p.fits.countTrue := by
    show [n] = [p.fits.countTrue] ↔ _
    simp
  unfold DeformableMirrorProxy.toCommand DeformableMirrorProxy.dmMapsToCommand
  rw [hmask]
  show (if (NdArray.zeros n : NdArray α).shape ≠ [p.fits.countTrue] then _ else _) = _ ↔ _
  by_cases hn : n = p.fits.countTrue
  · rw [if_neg (not_not_intro (hshape.mpr hn)), hn]
    exact ⟨fun hc => ⟨(Except.ok.inj hc).symm, .inl rfl⟩, fun hc => congrArg Except.ok hc.1.symm⟩
  · rw [if_pos (mt hshape.mp hn)]
    show (match (NdArray.zeros n : NdArray α).broadcastTo p.fits.shape with
      | none => _
      | some dmMap => Except.ok (NdArray.compress p.fits dmMap)) = _ ↔ _
    cases hb : (NdArray.zeros n : NdArray α).broadcastTo p.fits.shape with
    | none => exact iff_of_false (fun hc => nomatch hc) fun hc => hc.2.elim hn fun ⟨_, hb⟩ => nomatch hb
    | some b =>
      obtain ⟨hbshape, hbdata⟩ := NdArray.broadcastTo_ok hb
      have hcommand : NdArray.compress p.fits b = .zeros p.fits.countTrue :=
        NdArray.eq_zeros (NdArray.shape_compress hbshape) fun x hx =>
          List.eq_of_mem_replicate (hbdata x (NdArray.mem_compress hx))
      simp only [hcommand]
      exact ⟨fun hc => ⟨(Except.ok.inj hc).symm, .inr ⟨b, rfl⟩⟩, fun hc => congrArg Except.ok hc.1.symm⟩

theorem stackOfDms_ok {fits stack : NdArray Bool} (h : stackOfDms serviceId (some fits) = .ok stack) :
    2 ≤ fits.ndim ∧ (fits.ndim ≠ 2 → stack = fits) := by
  unfold stackOfDms at h
  simp only at h
  split at h
  · cases h
  · split at h
    · rename_i h1 h2
      exact ⟨by omega, fun hne => absurd h2 hne⟩
    · cases h
      exact ⟨by omega, fun _ => rfl⟩

/-- `np.zeros(n)` goes where the last dimension is `n`, or `n` is one. -/
theorem broadcast_zeros_iff (n rows cols : Nat) :
    (∃ b, (NdArray.zeros n : NdArray α).broadcastTo [rows, cols] = some b) ↔ n = cols ∨ n = 1 := by
  rw [NdArray.broadcastTo_isSome_iff]
  show NdArray.stretches [1, n] [rows, cols] = true ↔ _
  simp [NdArray.stretches]

omit [Zero α] in
/-- The proxy takes the first row for a DM, if there is one. -/
theorem numZeros_rows {p : DeformableMirrorProxy} {rows cols : Nat} (hshape : p.fits.shape = [rows, cols]) :
    p.numZeros = if rows = 0 then .error .indexError else .ok ((p.fits.data.take cols).count true * rows) := by
  have h2 : 2 ≤ p.fits.ndim := Nat.le_of_eq (congrArg List.length hshape).symm
  unfold DeformableMirrorProxy.numZeros
  rw [DeformableMirrorProxy.deviceActuatorMask_of_two h2]
  show (match p.fits.first with | none => _ | some dm => Except.ok (dm.countTrue * p.fits.shape.headD 0)) = _
  cases rows with
  | zero => rw [NdArray.first_of_empty hshape, if_pos rfl]
  | succ r =>
    obtain ⟨dm, hfirst, hdata⟩ := NdArray.first_of_shape hshape
    have hdm : dm.countTrue = (p.fits.data.take cols).count true := by
      rw [NdArray.countTrue, hdata, List.prod_singleton]
    rw [hfirst, if_neg (Nat.succ_ne_zero r), hshape]
    exact congrArg (fun n => Except.ok (n * (r + 1))) hdm

/-- When the zeros of the first row come to one, that row is the whole mask. -/
theorem countTrue_of_one {fits : NdArray Bool} {rows cols : Nat} (hshape : fits.shape = [rows, cols])
    (h : (fits.data.take cols).count true * rows = 1) : fits.countTrue = 1 := by
  have hrow := Nat.eq_one_of_mul_eq_one_right h
  obtain rfl := Nat.eq_one_of_mul_eq_one_left h
  have hlen : fits.data.length = cols := by
    rw [fits.length_data, hshape, List.prod_cons, List.prod_singleton, Nat.one_mul]
  rw [List.take_of_length_le (Nat.le_of_eq hlen)] at hrow
  exact hrow

theorem lengthAgrees_iff {fits : NdArray Bool} {rows cols : Nat} (hshape : fits.shape = [rows, cols]) :
    LengthAgrees fits ↔ 0 < rows ∧ ((fits.data.take cols).count true * rows = fits.countTrue ∨
      (fits.data.take cols).count true * rows = cols) := by
  constructor
  · exact fun h => h rows cols hshape
  · intro h r c hrc
    cases hshape.symm.trans hrc
    exact h

/-- The zeros of a mask of two dimensions. -/
theorem zeroCommand_rows {p : DeformableMirrorProxy} {rows cols : Nat} (hshape : p.fits.shape = [rows, cols])
    (c : NdArray α) :
    (p.numZeros >>= fun n => p.toCommand (.zeros n)) = .ok c ↔
      c = .zeros p.fits.countTrue ∧ LengthAgrees p.fits := by
  have h2 : 2 ≤ p.fits.ndim := Nat.le_of_eq (congrArg List.length hshape).symm
  rw [lengthAgrees_iff hshape, numZeros_rows hshape]
  split
  · rename_i hrows
    exact iff_of_false (fun h => nomatch h) fun h => absurd h.2.1 (by omega)
  · rename_i hrows
    show p.toCommand (.zeros ((p.fits.data.take cols).count true * rows)) = .ok c ↔ _
    rw [toCommand_zeros h2, hshape, broadcast_zeros_iff]
    refine and_congr_right fun _ => ?_
    constructor
    · rintro (h | h | h)
      · exact ⟨Nat.pos_of_ne_zero hrows, .inl h⟩
      · exact ⟨Nat.pos_of_ne_zero hrows, .inr h⟩
      · exact ⟨Nat.pos_of_ne_zero hrows, .inl (h.trans (countTrue_of_one hshape h).symm)⟩
    · rintro ⟨-, h⟩
      exact h.imp id .inl

/-- **The zeros** that the proxy sends are a command exactly when the lengths agree. -/
theorem zeroCommand {p : DeformableMirrorProxy} {stack dm : NdArray Bool}
    (h : stackOfDms serviceId (some p.fits) = .ok stack) (heven : stack.Even) (hdm : stack.first = some dm)
    (c : NdArray α) :
    (p.numZeros >>= fun n => p.toCommand (.zeros n)) = .ok c ↔
      c = .zeros p.fits.countTrue ∧ LengthAgrees p.fits := by
  obtain ⟨h2, hstack⟩ := stackOfDms_ok h
  by_cases htwo : p.fits.ndim = 2
  · obtain ⟨rows, cols, hshape⟩ := List.length_eq_two.mp htwo
    exact zeroCommand_rows hshape c
  · have hagrees : LengthAgrees p.fits := by
      intro rows cols hshape
      exact absurd (congrArg List.length hshape) htwo
    have hn : p.numZeros = .ok p.fits.countTrue := by
      unfold DeformableMirrorProxy.numZeros
      rw [DeformableMirrorProxy.deviceActuatorMask_of_two h2, ← stackOfDms_length h heven hdm, ← hstack htwo]
      show (match stack.first with | none => _ | some dm => Except.ok (dm.countTrue * stack.shape.headD 0)) = _
      rw [hdm]
    rw [bind_ok_iff]
    constructor
    · rintro ⟨n, -, hc⟩
      exact ⟨((toCommand_zeros h2 n c).mp hc).1, hagrees⟩
    · rintro ⟨hc, -⟩
      exact ⟨_, hn, (toCommand_zeros h2 _ c).mpr ⟨hc, .inl rfl⟩⟩

end Mask

/-! ## The sum -/

section Sum

variable {α : Type} [Add α] [Zero α] {len : Nat}

/-- `summed_command` is a command with the entries `g`; the integer 0 is one of zeros. -/
def Summed.Holds (len : Nat) (g : Nat → α) : Summed α → Prop
  | .int0 => ∀ i, g i = 0
  | .array a => a.shape = [len] ∧ ∀ i, i < len → a.data.getD i 0 = g i

theorem getD_map_add {l : List α} {i : Nat} (h : i < l.length) : (l.map (0 + ·)).getD i 0 = 0 + l.getD i 0 := by
  simp [List.getD_eq_getElem?_getD, h]

theorem getD_zipWith_add {l m : List α} {i : Nat} (hl : i < l.length) (hm : i < m.length) :
    (List.zipWith (· + ·) l m).getD i 0 = l.getD i 0 + m.getD i 0 := by
  have hi : i < (List.zipWith (· + ·) l m).length := by
    rw [List.length_zipWith]
    exact Nat.lt_min.mpr ⟨hl, hm⟩
  rw [List.getD_eq_getElem _ _ hi, List.getD_eq_getElem _ _ hl, List.getD_eq_getElem _ _ hm,
    List.getElem_zipWith]

theorem addCommand_ok {summed : Summed α} {g : Nat → α} (hs : summed.Holds len g) {f : NdArray α}
    (hf : f.shape = [len]) : ∃ a, DeformableMirrorProxy.addCommand summed f = .ok (.array a) ∧
      (Summed.array a).Holds len fun i => g i + f.data.getD i 0 := by
  have hlen := NdArray.length_of_shape hf
  cases summed with
  | int0 =>
    refine ⟨f.map (0 + ·), rfl, hf, fun i hi => ?_⟩
    show (f.data.map (0 + ·)).getD i 0 = _
    rw [getD_map_add (hlen ▸ hi), ← hs i]
  | array b =>
    obtain ⟨hb, hentries⟩ := hs
    obtain ⟨c, hc, hshape, hdata⟩ := NdArray.addInPlace_of_shape (hf.trans hb.symm)
    refine ⟨c, ?_, hshape.trans hb, fun i hi => ?_⟩
    · simp only [DeformableMirrorProxy.addCommand, hc]
    · rw [hdata, getD_zipWith_add (NdArray.length_of_shape hb ▸ hi) (hlen ▸ hi), hentries i hi]

end Sum

/-! ## The loop -/

namespace DeformableMirrorProxy

variable {α : Type} {p : DeformableMirrorProxy}

theorem dataStream_ok {streams : Streams α} {n : String} {s : DataStream α} :
    p.dataStream streams n = .ok s ↔
      ¬ (p.isAttribute n ∨ n ∈ p.propertyNames ∨ n ∈ p.commandNames) ∧ streams n = some s := by
  unfold dataStream
  split
  · rename_i h
    exact iff_of_false (fun he => nomatch he) fun he => he.1 h
  · rename_i h
    cases streams n with
    | none => exact iff_of_false (fun he => nomatch he) fun he => nomatch he.2
    | some t =>
      exact ⟨fun he => ⟨h, congrArg some (Except.ok.inj he)⟩, fun he => congrArg Except.ok (Option.some.inj he.2)⟩

theorem latest_ok {streams : Streams α} {n : String} {f : NdArray α} :
    p.latest streams n = .ok f ↔ ∃ s, p.dataStream streams n = .ok s ∧ ∃ older, s.frames = f :: older := by
  refine bind_ok_iff.trans (exists_congr fun s => and_congr_right fun _ => ?_)
  unfold DataStream.get
  cases s.frames with
  | nil => exact iff_of_false (fun he => nomatch he) fun ⟨_, he⟩ => nomatch he
  | cons g older =>
    constructor
    · intro he
      cases he
      exact ⟨older, rfl⟩
    · rintro ⟨_, he⟩
      cases he
      rfl

/-- A stream with a frame is reached by its name, unless something else has the name. -/
theorem latest_of_hasFrame {streams : Streams α} {n : String} (h : HasFrame streams n)
    (hn : ¬ (p.isAttribute n ∨ n ∈ p.propertyNames ∨ n ∈ p.commandNames)) :
    ∃ f, p.latest streams n = .ok f := by
  obtain ⟨s, hs, hne⟩ := h
  obtain ⟨f, older, hframes⟩ := List.exists_cons_of_ne_nil hne
  exact ⟨f, latest_ok.mpr ⟨s, dataStream_ok.mpr ⟨hn, hs⟩, older, hframes⟩⟩

theorem latest_congr {streams streams' : Streams α} {n : String} (h : streams' n = streams n) :
    p.latest streams' n = p.latest streams n := by
  unfold latest dataStream
  rw [h]

variable [Zero α]

/-- Entry `i` of the latest command of a channel. -/
def entry (p : DeformableMirrorProxy) (streams : Streams α) (n : String) (i : Nat) : α :=
  match p.latest streams n with
  | .ok f => f.data.getD i 0
  | .error _ => 0

variable [Add α]

/-- The zeros of the proxy make a command of length `len`, or nothing. -/
def SendsZeros (α : Type) [Zero α] (p : DeformableMirrorProxy) (len : Nat) : Prop :=
  ∀ c : NdArray α, (p.numZeros >>= fun n => p.toCommand (.zeros n)) = .ok c ↔
    c = .zeros len ∧ LengthAgrees p.fits

variable {len : Nat} (hz : SendsZeros α p len)

include hz in
/-- A turn that returns has read a command, and its lengths agree. -/
theorem flattenChannel_needs {summed : Summed α} {streams : Streams α} {n : String} {r : Summed α × Streams α}
    (h : p.flattenChannel summed streams n = .ok r) :
    LengthAgrees p.fits ∧ ∃ f, p.latest streams n = .ok f := by
  obtain ⟨f, hf, h⟩ := bind_ok_iff.mp h
  obtain ⟨_, -, h⟩ := bind_ok_iff.mp h
  obtain ⟨k, hk, h⟩ := bind_ok_iff.mp h
  obtain ⟨_, happly, -⟩ := bind_ok_iff.mp h
  obtain ⟨c, hc, -⟩ := bind_ok_iff.mp happly
  exact ⟨((hz c).mp (bind_ok_iff.mpr ⟨k, hk, hc⟩)).2, f, hf⟩

include hz in
/-- **One turn** adds the command of its channel, and makes zeros its latest. -/
theorem flattenChannel_ok {summed : Summed α} {streams : Streams α} {n : String} {g : Nat → α}
    (hu : Uniform len streams) (hs : summed.Holds len g) (hagrees : LengthAgrees p.fits)
    (hn : ∃ f, p.latest streams n = .ok f) :
    ∃ a streams', p.flattenChannel summed streams n = .ok (.array a, streams') ∧
      (Summed.array a).Holds len (fun i => g i + p.entry streams n i) ∧ Uniform len streams' ∧
      p.latest streams' n = .ok (.zeros len) ∧ ∀ m, m ≠ n → streams' m = streams m := by
  obtain ⟨f, hf⟩ := hn
  obtain ⟨s, hstream, older, hframes⟩ := latest_ok.mp hf
  obtain ⟨hfree, hsn⟩ := dataStream_ok.mp hstream
  obtain ⟨hshape, hlens⟩ := hu n s hsn
  have hflen : f.shape = [len] := hlens f (hframes ▸ List.mem_cons_self)
  obtain ⟨a, ha, hholds⟩ := addCommand_ok hs hflen
  obtain ⟨k, hk, hc⟩ := bind_ok_iff.mp ((hz (.zeros len)).mpr ⟨rfl, hagrees⟩)
  have hsub : s.submitData (.zeros len) = .ok { s with frames := .zeros len :: s.frames } :=
    submitData_ok.mpr ⟨hshape.symm, rfl⟩
  have hentry : (fun i => g i + p.entry streams n i) = fun i => g i + f.data.getD i 0 := by
    unfold entry
    rw [hf]
  refine ⟨a, Function.update streams n (some { s with frames := .zeros len :: s.frames }), ?_,
    hentry ▸ hholds, hu.submitData hsn hsub, ?_, fun m hm => Function.update_of_ne hm _ _⟩
  · refine bind_ok_iff.mpr ⟨f, hf, bind_ok_iff.mpr ⟨_, ha, bind_ok_iff.mpr ⟨k, hk, ?_⟩⟩⟩
    refine bind_ok_iff.mpr ⟨_, ?_, rfl⟩
    exact bind_ok_iff.mpr ⟨_, hc, bind_ok_iff.mpr ⟨s, hstream, bind_ok_iff.mpr ⟨_, hsub, rfl⟩⟩⟩
  · exact latest_ok.mpr ⟨_, dataStream_ok.mpr ⟨hfree, Function.update_self ..⟩, s.frames, rfl⟩

include hz in
/-- **The loop.** By induction on the names; a turn leaves the later channels alone. -/
theorem flattenLoop_ok (hagrees : LengthAgrees p.fits) : ∀ (names : List String) {summed : Summed α}
    {streams : Streams α} {g : Nat → α}, names.Nodup → Uniform len streams → summed.Holds len g →
    (∀ n ∈ names, ∃ f, p.latest streams n = .ok f) →
    ∃ summed' streams', p.flattenLoop summed streams names = (.ok summed', streams') ∧
      summed'.Holds len (fun i => (names.map fun n => p.entry streams n i).foldl (· + ·) (g i)) ∧
      (names ≠ [] → ∃ a, summed' = .array a) ∧
      (∀ n ∈ names, p.latest streams' n = .ok (.zeros len)) ∧ ∀ n, n ∉ names → streams' n = streams n
  | [], summed, streams, g, _, _, hs, _ =>
    ⟨summed, streams, rfl, hs, fun h => absurd rfl h, fun _ hn => absurd hn List.not_mem_nil, fun _ _ => rfl⟩
  | name :: names, summed, streams, g, hnodup, hu, hs, hlatest => by
    obtain ⟨hname, hnodup⟩ := List.nodup_cons.mp hnodup
    obtain ⟨a, streams₁, hturn, ha, hu₁, hzero, hothers⟩ :=
      flattenChannel_ok hz hu hs hagrees (hlatest name List.mem_cons_self)
    have hne : ∀ n ∈ names, n ≠ name := fun n hn he => hname (he ▸ hn)
    have hlatest₁ : ∀ n ∈ names, p.latest streams₁ n = p.latest streams n :=
      fun n hn => latest_congr (hothers n (hne n hn))
    obtain ⟨summed', streams', hloop, hholds, harray, hzeros, hkept⟩ :=
      flattenLoop_ok hagrees names hnodup hu₁ ha fun n hn =>
        (hlatest₁ n hn) ▸ hlatest n (List.mem_cons_of_mem name hn)
    have hentries : ∀ i, (names.map fun n => p.entry streams₁ n i) = names.map fun n => p.entry streams n i := by
      intro i
      refine List.map_congr_left fun n hn => ?_
      unfold entry
      rw [hlatest₁ n hn]
    refine ⟨summed', streams', ?_, ?_, fun _ => ?_, ?_, ?_⟩
    · rw [flattenLoop, hturn]
      exact hloop
    · simp only [hentries] at hholds
      exact hholds
    · cases names with
      | nil =>
        cases hloop
        exact ⟨a, rfl⟩
      | cons _ _ => exact harray (List.cons_ne_nil _ _)
    · intro n hn
      rcases List.mem_cons.mp hn with rfl | hn
      · rw [latest_congr (hkept n hname), hzero]
      · exact hzeros n hn
    · intro n hn
      rw [List.mem_cons, not_or] at hn
      rw [hkept n hn.2, hothers n hn.1]

include hz in
/-- What a loop that returns has found. -/
theorem flattenLoop_needs : ∀ (names : List String) {summed summed' : Summed α}
    {streams streams' : Streams α} {g : Nat → α}, names.Nodup → Uniform len streams → summed.Holds len g →
    p.flattenLoop summed streams names = (.ok summed', streams') →
    (names ≠ [] → LengthAgrees p.fits) ∧ ∀ n ∈ names, ∃ f, p.latest streams n = .ok f
  | [], _, _, _, _, _, _, _, _, _ => ⟨fun h => absurd rfl h, fun _ hn => absurd hn List.not_mem_nil⟩
  | name :: names, summed, summed', streams, streams', g, hnodup, hu, hs, hloop => by
    obtain ⟨hname, hnodup⟩ := List.nodup_cons.mp hnodup
    rw [flattenLoop] at hloop
    cases hturn : p.flattenChannel summed streams name with
    | error e =>
      rw [hturn] at hloop
      cases hloop
    | ok r =>
      obtain ⟨hagrees, hlatest⟩ := flattenChannel_needs hz hturn
      obtain ⟨a, streams₁, hturn₁, ha, hu₁, -, hothers⟩ := flattenChannel_ok hz hu hs hagrees hlatest
      rw [hturn₁] at hloop
      refine ⟨fun _ => hagrees, List.forall_mem_cons.mpr ⟨hlatest, fun n hn => ?_⟩⟩
      obtain ⟨f, hf⟩ := (flattenLoop_needs names hnodup hu₁ ha hloop).2 n hn
      rw [latest_congr (hothers n fun he => hname (he ▸ hn))] at hf
      exact ⟨f, hf⟩

end DeformableMirrorProxy

/-! ## Flattening -/

/-- What flattening the channels `names` is for: their sum, zeros in each of
them, and no other channel touched. -/
structure Flattened {α : Type} [Add α] [Zero α] (p : DeformableMirrorProxy) (len : Nat)
    (before after : Streams α) (names : List String) (sum : NdArray α) : Prop where
  shape : sum.shape = [len]
  entries : ∀ i, i < len → sum.data.getD i 0 = (names.map fun n => p.entry before n i).foldl (· + ·) 0
  zeroed : ∀ n ∈ names, p.latest after n = .ok (.zeros len)
  others : ∀ n, n ∉ names → after n = before n

/-- **Flattening** the named channels of a running service, whatever clients
have submitted, works exactly when the lengths agree and every name reaches a
stream that has a frame. A channel is reached in every such state, unless the
proxy finds something else of that name. -/
theorem flatten_channels_iff {α : Type} [Add α] [Zero α] {lower : String → String} {serviceId : String}
    {p : DeformableMirrorProxy} {channels : List String} {startupMap : String → Option (NdArray α)}
    {svc : DeformableMirrorService α}
    (hsvc : DeformableMirrorService.init lower serviceId (some p.fits) channels startupMap = .ok svc)
    (heven : svc.deviceActuatorMask.Even) (submissions : List (String × NdArray α)) (names : ChannelNames)
    (hne : names.toList ≠ []) (hnodup : names.toList.Nodup) :
    let before := submitAll svc.streams submissions
    ((∃ sum after, p.flattenChannels before names = (.ok (.array sum), after) ∧
        Flattened p svc.dmCommandLength before after names.toList sum) ↔
      LengthAgrees p.fits ∧ ∀ n ∈ names.toList, ∃ f, p.latest before n = .ok f) ∧
    ∀ n ∈ channels.map lower, n ≠ "total_voltage" → n ≠ "total_surface" →
      ¬ (p.isAttribute n ∨ n ∈ p.propertyNames ∨ n ∈ p.commandNames) → ∃ f, p.latest before n = .ok f := by
  intro before
  obtain ⟨⟨dm, hstack, hdm, hlength⟩, hu, hframes⟩ := init_ok hsvc
  obtain ⟨hu, hkeeps⟩ := submitAll_keeps submissions hu
  have hz : p.SendsZeros α svc.dmCommandLength := by
    rw [hlength, stackOfDms_length hstack heven hdm]
    exact zeroCommand hstack heven hdm
  have hzero : (Summed.int0 : Summed α).Holds svc.dmCommandLength fun _ => 0 := fun _ => rfl
  refine ⟨⟨?_, ?_⟩, ?_⟩
  · rintro ⟨sum, after, hloop, -⟩
    obtain ⟨hagrees, hlatest⟩ :=
      DeformableMirrorProxy.flattenLoop_needs hz names.toList hnodup hu hzero hloop
    exact ⟨hagrees hne, hlatest⟩
  · rintro ⟨hagrees, hlatest⟩
    obtain ⟨summed, after, hloop, hholds, harray, hzeros, hothers⟩ :=
      DeformableMirrorProxy.flattenLoop_ok hz hagrees names.toList hnodup hu hzero hlatest
    obtain ⟨sum, rfl⟩ := harray hne
    exact ⟨sum, after, hloop, hholds.1, hholds.2, hzeros, hothers⟩
  · intro n hn hvoltage hsurface hfree
    exact DeformableMirrorProxy.latest_of_hasFrame (hkeeps n (hframes n hn hvoltage hsurface)) hfree

/-- A proxy with nothing but data streams. -/
def plain (fits : NdArray Bool) : DeformableMirrorProxy := ⟨"dm", fits, fun _ => false, ["channels"], []⟩

def fullMask : NdArray Bool := ⟨[2, 2], [true, true, true, true], rfl⟩

theorem flatten_channels_full :
    ∃ svc : DeformableMirrorService Int,
      DeformableMirrorService.init id "dm" (some fullMask) ["a", "b"] (fun _ => none) = .ok svc ∧
      ∃ sum after,
        (plain fullMask).flattenChannels (submitAll svc.streams [("a", .ofList [1, 2, 3, 4])]) (.list ["b", "a"]) =
          (.ok (.array sum), after) ∧
        Flattened (plain fullMask) svc.dmCommandLength (submitAll svc.streams [("a", .ofList [1, 2, 3, 4])])
          after ["b", "a"] sum := by
  obtain ⟨svc, hsvc⟩ : ∃ svc : DeformableMirrorService Int,
      DeformableMirrorService.init id "dm" (some (plain fullMask).fits) ["a", "b"] (fun _ => none) = .ok svc :=
    ⟨_, rfl⟩
  have hlist : (ChannelNames.list ["b", "a"]).toList.Nodup := by decide
  refine ⟨svc, hsvc, (flatten_channels_iff hsvc ?_ _ (.list ["b", "a"]) (List.cons_ne_nil _ _) hlist).1.mpr
    ⟨?_, ?_⟩⟩
  · cases hsvc
    intro b hb
    cases hb with
    | head => rfl
    | tail _ hb => cases hb
  · intro rows cols h
    cases h
    decide
  · cases hsvc
    intro n hn
    rcases List.mem_cons.mp hn with rfl | hn
    · exact ⟨_, rfl⟩
    · obtain rfl := List.mem_singleton.mp hn
      exact ⟨_, rfl⟩

/-- Four rows of four, without the corners. -/
def roundMask : NdArray Bool :=
  ⟨[4, 4], [false, true, true, false, true, true, true, true, true, true, true, true, false, true, true, false], rfl⟩

/-- The service takes the mask as one DM of twelve actuators; the proxy sends
eight zeros, four rows of two. -/
theorem round_mask_raises :
    (∃ svc : DeformableMirrorService Int,
      DeformableMirrorService.init id "dm" (some roundMask) ["a"] (fun _ => none) = .ok svc ∧
      ((plain roundMask).flattenChannels svc.streams (.str "a")).1 =
        .error (.valueError "Invalid shape for dm map: (8,). Expected shape: (4, 4).")) ∧
    ¬ ∀ (mask : NdArray Bool) (channels : List String) (svc : DeformableMirrorService Int),
      DeformableMirrorService.init id "dm" (some mask) channels (fun _ => none) = .ok svc →
      svc.deviceActuatorMask.Even → ∀ names : ChannelNames, names.toList ≠ [] → names.toList.Nodup →
      (∀ n ∈ names.toList, n ∈ channels) →
      ∃ sum after, (plain mask).flattenChannels svc.streams names = (.ok (.array sum), after) ∧
        Flattened (plain mask) svc.dmCommandLength svc.streams after names.toList sum := by
  have hraises : ∀ svc : DeformableMirrorService Int,
      DeformableMirrorService.init id "dm" (some roundMask) ["a"] (fun _ => none) = .ok svc →
      ((plain roundMask).flattenChannels svc.streams (.str "a")).1 =
        .error (.valueError "Invalid shape for dm map: (8,). Expected shape: (4, 4).") := by
    intro svc h
    cases h
    rfl
  refine ⟨⟨_, rfl, rfl⟩, fun h => ?_⟩
  have heven : roundMask.expandDims.Even := by
    intro b hb
    cases hb with
    | head => rfl
    | tail _ hb => cases hb
  obtain ⟨sum, after, hloop, -⟩ := h roundMask ["a"] _ rfl heven (.str "a") (List.cons_ne_nil _ _)
    (by decide) (fun n hn => hn)
  have := (congrArg Prod.fst hloop).symm.trans (hraises _ rfl)
  cases this

end Catkit2.L5.DmChannels
