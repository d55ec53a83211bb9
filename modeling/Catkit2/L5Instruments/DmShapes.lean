import Catkit2.L5Instruments.FlattenChannels

/-!
# DM maps, commands and files (catkit2/testbed/proxies/deformable_mirror.py)

A DM shape is a command, with one number for each actuator, or a map, with one for each
place of the mask. The proxy converts one into the other, and `write_dm_shape` writes both
into a file, whose command the service takes as the startup map of a channel. A file holds
the arrays that were written to it.

* `dm_maps_round_trip`: the two conversions are inverse to each other, and `apply_shape`
  makes no difference between a command and its map.
* `written_shape_restored`: a channel starts at the shape that was written.
-/
namespace Catkit2.L5.DmChannels

variable {α : Type}

/-! ## The functions -/

/-- mirrors catkit2/testbed/proxies/deformable_mirror.py:103-119 -/
def DeformableMirrorProxy.commandToDmMaps [Zero α] (p : DeformableMirrorProxy) (command : NdArray α) :
    Except DmError (NdArray α) := do
  let mask ← p.deviceActuatorMask
  match mask.expand command with
  | none => .error .broadcastError
  | some dmMaps => .ok dmMaps

/-- The images `DM_MAP` and `COMMAND` of a file. -/
structure ShapeFile (α : Type) where
  dmMap : NdArray α
  command : NdArray α

/-- mirrors catkit2/testbed/proxies/deformable_mirror.py:141-167 -/
def DeformableMirrorProxy.writeDmShape [Zero α] (p : DeformableMirrorProxy) (dmShape : NdArray α) :
    Except DmError (ShapeFile α) := do
  let mask ← p.deviceActuatorMask
  if dmShape.shape ≠ [mask.countTrue] then
    let command ← p.dmMapsToCommand dmShape
    return ⟨dmShape, command⟩
  else
    let dmMap ← p.commandToDmMaps dmShape
    return ⟨dmMap, dmShape⟩

/-! ## Maps and commands -/

variable {p : DeformableMirrorProxy} {mask : NdArray Bool}

theorem two_le_ndim (h : p.deviceActuatorMask = .ok mask) : p.fits = mask ∧ 2 ≤ mask.ndim := by
  unfold DeformableMirrorProxy.deviceActuatorMask at h
  split at h
  · cases h
  · cases h
    exact ⟨rfl, by omega⟩

/-- An array of the shape of the mask is no command. -/
theorem shape_ne (h : p.deviceActuatorMask = .ok mask) {a : NdArray α} (ha : a.shape = mask.shape) (n : Nat) :
    a.shape ≠ [n] := by
  intro hn
  have hndim := (two_le_ndim h).2
  unfold NdArray.ndim at hndim
  rw [← ha, hn] at hndim
  exact absurd hndim (by rw [List.length_singleton]; omega)

theorem dmMapsToCommand_of_shape (h : p.deviceActuatorMask = .ok mask) {a : NdArray α} (ha : a.shape = mask.shape) :
    p.dmMapsToCommand a = .ok (NdArray.compress mask a) := by
  obtain ⟨b, hb⟩ : ∃ b, a.broadcastTo mask.shape = some b :=
    (NdArray.broadcastTo_isSome_iff a mask.shape).mpr (by simp [NdArray.padded, NdArray.ndim, ha, NdArray.stretches_self])
  have hself : b = a := by
    obtain ⟨l, hl, hdata⟩ := Option.map_eq_some_iff.mp (NdArray.broadcastData_self ha)
    unfold NdArray.broadcastTo at hb
    rw [hl] at hb
    cases hb
    obtain ⟨_, _, _⟩ := a
    cases ha
    cases hdata
    rfl
  unfold DeformableMirrorProxy.dmMapsToCommand
  rw [h]
  show (match a.broadcastTo mask.shape with
    | none => _
    | some dmMap => Except.ok (NdArray.compress mask dmMap)) = _
  rw [hb, hself]

theorem toCommand_of_shape (h : p.deviceActuatorMask = .ok mask) {a : NdArray α} (ha : a.shape = mask.shape) :
    p.toCommand a = .ok (NdArray.compress mask a) := by
  unfold DeformableMirrorProxy.toCommand
  rw [h]
  show (if a.shape ≠ [mask.countTrue] then p.dmMapsToCommand a else .ok a) = _
  rw [if_pos (shape_ne h ha _), dmMapsToCommand_of_shape h ha]

theorem toCommand_of_command (h : p.deviceActuatorMask = .ok mask) {command : NdArray α}
    (hc : command.shape = [mask.countTrue]) : p.toCommand command = .ok command := by
  unfold DeformableMirrorProxy.toCommand
  rw [h]
  show (if command.shape ≠ [mask.countTrue] then p.dmMapsToCommand command else .ok command) = _
  rw [if_neg (not_not_intro hc)]

/-- What `apply_shape` submits is all that it takes from the shape. -/
theorem applyShape_congr {a b : NdArray α} (h : p.toCommand a = p.toCommand b) (streams : Streams α)
    (channel : String) : p.applyShape streams channel a = p.applyShape streams channel b := by
  unfold DeformableMirrorProxy.applyShape
  rw [h]

variable [Zero α]

theorem commandToDmMaps_eq (h : p.deviceActuatorMask = .ok mask) {command maps : NdArray α}
    (hm : mask.expand command = some maps) : p.commandToDmMaps command = .ok maps := by
  unfold DeformableMirrorProxy.commandToDmMaps
  rw [h]
  show (match mask.expand command with
    | none => Except.error DmError.broadcastError
    | some dmMaps => .ok dmMaps) = _
  rw [hm]

/-- **There and back**: a command of the right length becomes maps that are zero outside of
the mask, from which the command comes back and which `apply_shape` submits as the command;
maps that are zero outside of the mask come back from their command. -/
theorem dm_maps_round_trip (h : p.deviceActuatorMask = .ok mask) :
    (∀ command : NdArray α, command.shape = [mask.countTrue] → ∃ maps, p.commandToDmMaps command = .ok maps ∧
      maps.shape = mask.shape ∧ mask.OnMask maps ∧ p.dmMapsToCommand maps = .ok command ∧
      ∀ streams channel, p.applyShape streams channel maps = p.applyShape streams channel command) ∧
    ∀ maps : NdArray α, maps.shape = mask.shape → mask.OnMask maps → ∃ command,
      p.dmMapsToCommand maps = .ok command ∧ command.shape = [mask.countTrue] ∧ p.commandToDmMaps command = .ok maps := by
  refine ⟨fun command hc => ?_, fun maps hm hzero => ?_⟩
  · obtain ⟨maps, hmaps, hshape, -⟩ := NdArray.expand_of_shape hc
    have hback := NdArray.compress_expand hc hmaps
    have hcommand : p.toCommand maps = .ok command := by rw [toCommand_of_shape h hshape, hback]
    refine ⟨maps, commandToDmMaps_eq h hmaps, hshape, (NdArray.expand_ok hmaps).2, ?_, fun streams channel => ?_⟩
    · rw [dmMapsToCommand_of_shape h hshape, hback]
    · exact applyShape_congr (hcommand.trans (toCommand_of_command h hc).symm) streams channel
  · exact ⟨_, dmMapsToCommand_of_shape h hm, NdArray.shape_compress hm,
      commandToDmMaps_eq h (NdArray.expand_compress hm hzero)⟩

/-- Two by two, without the upper row. -/
def lowerMask : NdArray Bool := ⟨[2, 2], [false, false, true, true], rfl⟩

theorem dm_maps_round_trip_lower : ∃ maps : NdArray Int,
    (plain lowerMask).commandToDmMaps (.ofList [5, 0]) = .ok maps ∧ maps.data = [0, 0, 5, 0] ∧
      (plain lowerMask).dmMapsToCommand maps = .ok (.ofList [5, 0]) := by
  obtain ⟨maps, hmaps, -, -, hback, -⟩ :=
    (dm_maps_round_trip (α := Int) (p := plain lowerMask) rfl).1 (.ofList [5, 0]) rfl
  refine ⟨maps, hmaps, ?_, hback⟩
  cases hmaps
  rfl

/-! ## Startup maps -/

/-- The newest frame of a stream. -/
def Newest {α : Type} (streams : Streams α) (n : String) (f : NdArray α) : Prop :=
  ∃ s, streams n = some s ∧ s.frames.head? = some f

section Startup

variable {lower : String → String} {serviceId : String} {startupMap : String → Option (NdArray α)}

theorem addChannel_newest {len : Nat} {streams streams' : Streams α} {d : String}
    (hadd : addChannel lower startupMap len streams d = .ok streams') (n : String) (f : NdArray α) :
    (lower d = n → (startupMap d).getD (.zeros len) = f → Newest streams' n f) ∧
      (lower d ≠ n → Newest streams n f → Newest streams' n f) := by
  obtain ⟨stream, hsub, hadd⟩ := bind_ok_iff.mp hadd
  obtain ⟨-, rfl⟩ := submitData_ok.mp hsub
  cases hadd
  refine ⟨fun hn hf => ?_, fun hn hnewest => ?_⟩
  · rw [← hn, ← hf]
    exact ⟨_, Function.update_self .., rfl⟩
  · obtain ⟨s, hs, hframes⟩ := hnewest
    refine ⟨s, ?_, hframes⟩
    unfold makeDataStream
    rw [Function.update_of_ne hn.symm, Function.update_of_ne hn.symm, hs]

/-- A channel starts at its startup map, if no other has its name. -/
theorem addChannels_newest {len : Nat} {c : String} {f : NdArray α} (hmap : startupMap c = some f)
    {channels : List String} {streams streams' : Streams α}
    (hadd : channels.foldlM (addChannel lower startupMap len) streams = .ok streams')
    (hdistinct : ∀ d ∈ channels, lower d = lower c → d = c) (hstart : c ∈ channels ∨ Newest streams (lower c) f) :
    Newest streams' (lower c) f := by
  let R (channels : List String) (streams streams' : Streams α) : Prop :=
    (∀ d ∈ channels, lower d = lower c → d = c) → (c ∈ channels ∨ Newest streams (lower c) f) →
      Newest streams' (lower c) f
  refine foldlM_ok (R := R) ?_ ?_ channels hadd hdistinct hstart
  · exact fun streams _ hstart => hstart.resolve_left List.not_mem_nil
  · intro d channels streams streams₁ streams' h1 ih hdistinct hstart
    obtain ⟨hsame, hother⟩ := addChannel_newest h1 (lower c) f
    refine ih (fun e he => hdistinct e (List.mem_cons_of_mem d he)) ?_
    by_cases hd : lower d = lower c
    · refine .inr (hsame hd ?_)
      rw [hdistinct d List.mem_cons_self hd, hmap]
      rfl
    · obtain hc | hnewest := hstart
      · obtain rfl | hc := List.mem_cons.mp hc
        · exact absurd rfl hd
        · exact .inl hc
      · exact .inr (hother hd hnewest)

theorem init_newest {fits : Option (NdArray Bool)} {channels : List String} {svc : DeformableMirrorService α}
    (h : DeformableMirrorService.init lower serviceId fits channels startupMap = .ok svc) {c : String} {f : NdArray α}
    (hc : c ∈ channels) (hmap : startupMap c = some f) (hdistinct : ∀ d ∈ channels, lower d = lower c → d = c)
    (hvoltage : lower c ≠ "total_voltage") (hsurface : lower c ≠ "total_surface") : Newest svc.streams (lower c) f := by
  obtain ⟨mask, -, h⟩ := bind_ok_iff.mp h
  split at h
  · cases h
  · obtain ⟨streams, hadd, h⟩ := bind_ok_iff.mp h
    cases h
    obtain ⟨s, hs, hframes⟩ := addChannels_newest hmap hadd hdistinct (.inl hc)
    refine ⟨s, ?_, hframes⟩
    show makeDataStream (makeDataStream streams _ _) _ _ (lower c) = some s
    unfold makeDataStream
    rw [Function.update_of_ne hsurface, Function.update_of_ne hvoltage, hs]

end Startup

/-! ## What is written to a file -/

/-- Both images are the shape that `apply_shape` submits. -/
theorem writeDmShape_ok (h : p.deviceActuatorMask = .ok mask) {dmShape : NdArray α} {file : ShapeFile α}
    (hfile : p.writeDmShape dmShape = .ok file) :
    p.toCommand dmShape = .ok file.command ∧ p.dmMapsToCommand file.dmMap = .ok file.command ∧
      p.toCommand file.dmMap = .ok file.command := by
  unfold DeformableMirrorProxy.writeDmShape at hfile
  rw [h] at hfile
  have hfile : (if dmShape.shape ≠ [mask.countTrue] then
      p.dmMapsToCommand dmShape >>= fun command => pure (⟨dmShape, command⟩ : ShapeFile α)
    else p.commandToDmMaps dmShape >>= fun dmMap => pure ⟨dmMap, dmShape⟩) = .ok file := hfile
  have hto : p.toCommand dmShape =
      if dmShape.shape ≠ [mask.countTrue] then p.dmMapsToCommand dmShape else .ok dmShape := by
    unfold DeformableMirrorProxy.toCommand
    rw [h]
    rfl
  by_cases hshape : dmShape.shape = [mask.countTrue]
  · rw [if_neg (not_not_intro hshape)] at hfile hto
    obtain ⟨maps, hmaps, hfile⟩ := bind_ok_iff.mp hfile
    cases hfile
    obtain ⟨maps', hmaps', hshape', -⟩ := NdArray.expand_of_shape hshape
    cases hmaps.symm.trans (commandToDmMaps_eq h hmaps')
    refine ⟨hto, ?_, ?_⟩
    · rw [dmMapsToCommand_of_shape h hshape', NdArray.compress_expand hshape hmaps']
    · rw [toCommand_of_shape h hshape', NdArray.compress_expand hshape hmaps']
  · rw [if_pos hshape] at hfile hto
    obtain ⟨command, hcommand, hfile⟩ := bind_ok_iff.mp hfile
    cases hfile
    exact ⟨hto.trans hcommand, hcommand, hto.trans hcommand⟩

/-- **A shape that was written** is where a channel starts that has the file as its startup
map: its newest frame is the command that `apply_shape` submits for that shape, and for the
map in the file as well. -/
theorem written_shape_restored {lower : String → String} {serviceId : String}
    {startupMap : String → Option (NdArray α)} {channels : List String} {svc : DeformableMirrorService α}
    (h : p.deviceActuatorMask = .ok mask) {dmShape : NdArray α} {file : ShapeFile α}
    (hfile : p.writeDmShape dmShape = .ok file)
    (hsvc : DeformableMirrorService.init lower serviceId (some p.fits) channels startupMap = .ok svc)
    {c : String} (hc : c ∈ channels) (hmap : startupMap c = some file.command)
    (hdistinct : ∀ d ∈ channels, lower d = lower c → d = c)
    (hvoltage : lower c ≠ "total_voltage") (hsurface : lower c ≠ "total_surface") :
    ∃ command, (svc.streams (lower c)).map DataStream.get = some (.ok command) ∧
      p.toCommand dmShape = .ok command ∧ p.dmMapsToCommand file.dmMap = .ok command ∧
      p.toCommand file.dmMap = .ok command ∧
      ∀ streams channel, p.applyShape streams channel file.dmMap = p.applyShape streams channel dmShape := by
  obtain ⟨hto, hback, hmapTo⟩ := writeDmShape_ok h hfile
  obtain ⟨s, hs, hframes⟩ := init_newest hsvc hc hmap hdistinct hvoltage hsurface
  refine ⟨file.command, ?_, hto, hback, hmapTo, applyShape_congr (hmapTo.trans hto.symm)⟩
  rw [hs]
  unfold DataStream.get
  cases hl : s.frames with
  | nil =>
    rw [hl] at hframes
    cases hframes
  | cons f l =>
    rw [hl] at hframes
    cases hframes
    simp [hl]

/-- A map is written, and the channel `poke` starts at it. -/
theorem written_shape_restored_poke :
    ∃ (file : ShapeFile Int) (svc : DeformableMirrorService Int) (command : NdArray Int),
      (plain lowerMask).writeDmShape ⟨[2, 2], [9, 0, 5, 0], rfl⟩ = .ok file ∧
      (svc.streams "poke").map DataStream.get = some (.ok command) ∧ command = .ofList [5, 0] := by
  obtain ⟨file, hfile⟩ : ∃ file : ShapeFile Int,
      (plain lowerMask).writeDmShape ⟨[2, 2], [9, 0, 5, 0], rfl⟩ = .ok file := ⟨_, rfl⟩
  let startupMap : String → Option (NdArray Int) := fun c => if c = "poke" then some file.command else none
  obtain ⟨svc, hsvc⟩ : ∃ svc : DeformableMirrorService Int,
      DeformableMirrorService.init id "dm" (some (plain lowerMask).fits) ["flat", "poke"] startupMap = .ok svc := by
    cases hfile
    exact ⟨_, rfl⟩
  have hmask : (plain lowerMask).deviceActuatorMask = .ok lowerMask := rfl
  obtain ⟨command, hget, hto, -⟩ := written_shape_restored hmask hfile hsvc (c := "poke")
    (by decide) rfl (by decide) (by decide) (by decide)
  have hmap : (plain lowerMask).toCommand (⟨[2, 2], [9, 0, 5, 0], rfl⟩ : NdArray Int) = .ok (.ofList [5, 0]) := rfl
  exact ⟨file, svc, command, hfile, hget, Except.ok.inj (hto.symm.trans hmap)⟩

end Catkit2.L5.DmChannels
