import Catkit2.Core.Except
import Catkit2.Core.Number
import Catkit2.L1Encoding.CastTo
import Catkit2.L2Stream.LogRefinement
import Catkit2.L4Testbed.ServiceRun

/-!
# Is the testbed alive? (TestbedProxy.cpp IsAlive, Service.cpp MonitorHeartbeats)

The testbed submits the time to its heartbeat stream ten times a second, and
every service compares the newest of these with its own reading of the clock,
once a second. The age is a `uint64_t`, and it is compared as a double. The
clock is the system's, so that a reading may lie before one made earlier.

The service is that of `ServiceRun`; what its heartbeat thread finds of the
testbed is `IsAlive` of a heartbeat stream, at any time. Where `IsAlive` throws
the process ends, and no step is made.

* `isRecent_iff`: the comparison is that of the wrapped age with 30 s.
* `isAlive_heartbeats`: what is compared is the newest heartbeat.
* `isAlive_sound_iff`: the testbed counts as dead only after 30 s, and no service
  shuts down for a heartbeat that is newer than the clock, where the age does
  not wrap.
-/
namespace Catkit2.L4

open Catkit2.L1 Catkit2.L2

/-! ## The heartbeat stream of the testbed -/

/-- mirrors catkit2/testbed/testbed.py:293 -/
def makeHeartbeatStream : Except String DataStream := DataStream.create .uint64 [1] 20

/-- A heartbeat, and when it is submitted. -/
structure Heartbeat where
  timestamp : UInt64
  submitted : UInt64

def Heartbeat.submit (stream : DataStream) (beat : Heartbeat) : DataStream :=
  stream.submitData (Mem.ofList (bytesLE 8 beat.timestamp)) beat.submitted

/-- mirrors catkit2/testbed/testbed.py:369-374 -/
def doHeartbeats (stream : DataStream) (beats : List Heartbeat) : DataStream := beats.foldl Heartbeat.submit stream

/-! ## The comparison -/

/-- A double, in seconds.
mirrors catkit_core/TestbedProxy.cpp:15 -/
def HEARTBEAT_LIVENESS : Number := .fin 30

/-- `GetLatestFrame().AsArray<uint64_t>()(0)`; the reader does not wait. -/
def aliveTimestamp (stream : DataStream) : Except String UInt64 :=
  match stream.getLatestFrame with
  | .frame frame => .ok (wordLE (stream.buffer.read frame.data 8))
  | .error msg => .error msg
  | .wait => .error "Frame is not available yet."

/-- `(current_timestamp - alive_timestamp) < HEARTBEAT_LIVENESS * 1e9`: the
difference is converted to a double. -/
def isRecent (alive_timestamp current_timestamp : UInt64) : Bool :=
  Number.lt (Number.round (current_timestamp - alive_timestamp).toNat)
    (Number.fmul HEARTBEAT_LIVENESS (.fin (10 ^ 9)))

/-- `m_HeartbeatStream` is the stream after `GetTestbedInfo`, which may throw.
mirrors catkit_core/TestbedProxy.cpp:174-182 -/
def isAlive (m_HeartbeatStream : Except String DataStream) (current_timestamp : UInt64) : Except String Bool := do
  let stream ← m_HeartbeatStream
  let alive_timestamp ← aliveTimestamp stream
  return isRecent alive_timestamp current_timestamp

/-- 30 s in nanoseconds. -/
def liveness : Nat := 30 * 10 ^ 9

theorem isRecent_iff (h t : UInt64) : isRecent h t = true ↔ (t - h).toNat < liveness := by
  have hbound : Number.fmul HEARTBEAT_LIVENESS (.fin (10 ^ 9)) = Number.round (liveness : ℕ) := by
    simp only [Number.fmul, HEARTBEAT_LIVENESS, liveness]
    norm_num
  unfold isRecent
  rw [hbound]
  constructor
  · intro hlt
    by_contra hge
    have hle := Number.round_mono (x := (liveness : ℕ)) (y := (t - h).toNat)
      (Nat.cast_le.mpr (Nat.le_of_not_lt hge))
    rw [Number.not_lt_of_le hle] at hlt
    cases hlt
  · intro hlt
    rw [Number.round_natCast (Nat.lt_trans hlt (by decide)), Number.round_natCast (by decide), Number.lt_fin]
    exact decide_eq_true (Nat.cast_lt.mpr hlt)

/-- The age does not wrap, or so far that what is left is below 30 s. -/
def InStep (h t : UInt64) : Prop := h ≤ t ∨ 2 ^ 64 - liveness < h.toNat - t.toNat

instance (h t : UInt64) : Decidable (InStep h t) := by
  unfold InStep
  infer_instance

theorem age_of_le {h t : UInt64} (hle : h ≤ t) : (t - h).toNat = t.toNat - h.toNat :=
  UInt64.toNat_sub_of_le _ _ hle

/-- A heartbeat from after the clock reading is almost 600 years old. -/
theorem age_of_lt {h t : UInt64} (hlt : t < h) : (t - h).toNat = 2 ^ 64 - (h.toNat - t.toNat) := by
  rw [UInt64.lt_iff_toNat_lt] at hlt
  have := h.toNat_lt
  have := t.toNat_lt
  rw [UInt64.toNat_sub]
  omega

/-- **The comparison is right exactly where the age does not wrap.** -/
theorem isRecent_sound_iff (h t : UInt64) :
    (isRecent h t = false → (liveness : ℤ) ≤ (t.toNat : ℤ) - h.toNat) ↔ InStep h t := by
  rw [Bool.eq_false_iff, ne_eq, isRecent_iff, Nat.not_lt]
  have := h.toNat_lt
  have hsmall : liveness < 2 ^ 64 := by decide
  unfold InStep
  by_cases hle : h ≤ t
  · have := UInt64.le_iff_toNat_le.mp hle
    rw [age_of_le hle]
    exact iff_of_true (fun _ => by omega) (.inl hle)
  · have hlt := UInt64.not_le.mp hle
    have := UInt64.lt_iff_toNat_lt.mp hlt
    rw [age_of_lt hlt]
    constructor
    · intro hsound
      exact .inr (by omega)
    · rintro (h' | h')
      · exact absurd h' hle
      · omega

/-- A comparison that fails is with a newer heartbeat exactly where the age wraps. -/
theorem newer_iff {h t : UInt64} (hdead : isRecent h t = false) : t < h ↔ ¬ InStep h t := by
  rw [← isRecent_sound_iff, UInt64.lt_iff_toNat_lt]
  have hpos : 0 < liveness := by decide
  constructor
  · intro hlt hsound
    have := hsound hdead
    omega
  · intro hn
    by_contra hle
    refine hn fun _ => ?_
    rw [Bool.eq_false_iff, ne_eq, isRecent_iff, age_of_le (UInt64.le_iff_toNat_le.mpr (by omega))] at hdead
    omega

/-! ## What is compared -/

/-- The layout of the heartbeat stream. -/
def heartbeatLayout : Layout := ⟨.uint64, [1], 20⟩

theorem heartbeatLayout_sized : heartbeatLayout.Sized :=
  ⟨by decide, fun _ _ => by show sizeofDataStreamHeader.toNat + 8 * 20 < 2 ^ 64; decide⟩

/-- The stream holds frames of one 64-bit word. -/
def HoldsHeartbeats (stream : DataStream) : Prop := ∃ a, Mirrors stream a ∧ a.layout = heartbeatLayout

theorem HoldsHeartbeats.submit {stream : DataStream} (h : HoldsHeartbeats stream) (beat : Heartbeat) :
    HoldsHeartbeats (beat.submit stream) := by
  obtain ⟨a, hm, hl⟩ := h
  exact ⟨_, mirrors_submitData hm _ _, hl⟩

theorem HoldsHeartbeats.doHeartbeats {stream : DataStream} (h : HoldsHeartbeats stream) (beats : List Heartbeat) :
    HoldsHeartbeats (doHeartbeats stream beats) := by
  induction beats generalizing stream with
  | nil => exact h
  | cons beat beats ih => exact ih (h.submit beat)

/-- What was submitted last is read back. -/
theorem aliveTimestamp_submit {stream : DataStream} (h : HoldsHeartbeats stream) (beat : Heartbeat) :
    aliveTimestamp (beat.submit stream) = .ok beat.timestamp := by
  obtain ⟨a, hm, hl⟩ := h
  obtain ⟨id, hlatest, hread⟩ := latest_bytes hm (Mem.ofList (bytesLE 8 beat.timestamp)) beat.submitted
  have hsize : a.layout.bytesPerFrame = 8 := by
    rw [hl]
    decide
  have hword := Mem.read_ofList (bytesLE 8 beat.timestamp)
  rw [length_bytesLE] at hword
  rw [hsize, hword] at hread
  rw [Heartbeat.submit, aliveTimestamp, hlatest]
  show Except.ok (wordLE ((stream.submitData (Mem.ofList (bytesLE 8 beat.timestamp)) beat.submitted).buffer.read
    ((stream.submitData (Mem.ofList (bytesLE 8 beat.timestamp)) beat.submitted).offset id) 8)) = _
  rw [hread, wordLE_bytesLE]

/-- The stream of a testbed that has put out these heartbeats. -/
def heartbeatStream (beats : List Heartbeat) : Except String DataStream :=
  makeHeartbeatStream.map fun stream => doHeartbeats stream beats

theorem aliveTimestamp_heartbeats (beats : List Heartbeat) (beat : Heartbeat) :
    (heartbeatStream (beats ++ [beat])).bind aliveTimestamp = .ok beat.timestamp := by
  obtain ⟨stream, hs⟩ : ∃ stream, makeHeartbeatStream = .ok stream := ⟨_, rfl⟩
  have hmade : HoldsHeartbeats stream := ⟨_, mirrors_create heartbeatLayout_sized hs, rfl⟩
  have hlast := aliveTimestamp_submit (hmade.doHeartbeats beats) beat
  have hconcat : doHeartbeats stream (beats ++ [beat]) = beat.submit (doHeartbeats stream beats) :=
    List.foldl_concat ..
  rw [heartbeatStream, hs]
  show aliveTimestamp (doHeartbeats stream (beats ++ [beat])) = _
  rw [hconcat, hlast]

theorem isAlive_ok_iff {m : Except String DataStream} {t : UInt64} {alive : Bool} :
    isAlive m t = .ok alive ↔ ∃ h, m.bind aliveTimestamp = .ok h ∧ alive = isRecent h t := by
  constructor
  · intro h
    obtain ⟨stream, hm, h⟩ := bind_ok_iff.mp h
    obtain ⟨alive_timestamp, ha, h⟩ := bind_ok_iff.mp h
    cases h
    exact ⟨alive_timestamp, bind_ok_iff.mpr ⟨stream, hm, ha⟩, rfl⟩
  · rintro ⟨alive_timestamp, h, rfl⟩
    obtain ⟨stream, hm, ha⟩ := bind_ok_iff.mp h
    exact bind_ok_iff.mpr ⟨stream, hm, bind_ok_iff.mpr ⟨alive_timestamp, ha, rfl⟩⟩

/-- **A service compares the newest heartbeat.** -/
theorem isAlive_heartbeats (beats : List Heartbeat) (beat : Heartbeat) (t : UInt64) :
    isAlive (heartbeatStream (beats ++ [beat])) t = .ok (isRecent beat.timestamp t) :=
  isAlive_ok_iff.mpr ⟨beat.timestamp, aliveTimestamp_heartbeats beats beat, rfl⟩

/-! ## The heartbeat thread -/

/-- `shutDownFor` is the heartbeat and the clock reading for which the heartbeat
thread shuts its service down. -/
structure Watching extends ServiceRun.State where
  shutDownFor : Option (UInt64 × UInt64)

inductive WatchStep where
  | run (safe : Bool) (timestamp : UInt64)
  | safety (safe : Bool)
  | heartbeat (m_HeartbeatStream : Except String DataStream) (current_timestamp timestamp : UInt64)
  | shutDown

namespace Watching

/-- A step of the service. -/
def lift (b : ServiceRun.Behaviour) (s : Watching) (l : ServiceRun.Step) : Option Watching :=
  (s.toState.step b l).map fun s' => { s with toState := s' }

/-- mirrors catkit_core/Service.cpp:274-293 -/
def step (b : ServiceRun.Behaviour) (s : Watching) : WatchStep → Option Watching
  | .run safe timestamp => s.lift b (.run safe timestamp)
  | .safety safe => s.lift b (.safety safe)
  | .heartbeat m_HeartbeatStream current_timestamp timestamp =>
    match s.heartbeat with
    | .look =>
      match m_HeartbeatStream.bind aliveTimestamp, isAlive m_HeartbeatStream current_timestamp with
      | .ok alive_timestamp, .ok alive =>
        { s with shutDownFor := if alive then s.shutDownFor else some (alive_timestamp, current_timestamp) }.lift b
          (.heartbeat alive timestamp)
      | _, _ => none
    | _ => s.lift b (.heartbeat true timestamp)  -- the argument is for `look` alone
  | .shutDown => s.lift b .shutDown

end Watching

def monitorHeartbeats (b : ServiceRun.Behaviour) : LTS Watching WatchStep :=
  .ofFn (· = ⟨.new, none⟩) (Watching.step b)

/-- What the heartbeat thread did: no shutdown without a comparison that failed. -/
structure Judged (s : Watching) : Prop where
  dead : ∀ h t, s.shutDownFor = some (h, t) → isRecent h t = false
  cause : s.heartbeat = .shutDown → s.shutDownFor ≠ none

/-- The other threads do not take the heartbeat thread to its shutdown. -/
theorem heartbeat_other {b : ServiceRun.Behaviour} {s s' : ServiceRun.State} {l : ServiceRun.Step}
    (hl : ∀ alive timestamp, l ≠ .heartbeat alive timestamp) (hs : s.step b l = some s')
    (hdown : s'.heartbeat = .shutDown) : s.heartbeat = .shutDown := by
  cases l with
  | run safe timestamp =>
    simp only [ServiceRun.State.step, ServiceRun.State.runStep] at hs
    split at hs
    all_goals (try split at hs) <;> cases hs
    all_goals first | exact hdown | cases hdown
  | safety safe =>
    simp only [ServiceRun.State.step, ServiceRun.State.safetyStep] at hs
    split at hs <;> cases hs <;> exact hdown
  | heartbeat alive timestamp => exact absurd rfl (hl alive timestamp)
  | shutDown =>
    cases hs
    exact hdown

/-- Where the heartbeat thread does not look at the testbed it goes to no shutdown. -/
theorem heartbeat_own {b : ServiceRun.Behaviour} {s s' : ServiceRun.State} {alive : Bool} {timestamp : UInt64}
    (hlook : s.heartbeat = .look → alive = true) (hs : s.step b (.heartbeat alive timestamp) = some s') :
    s'.heartbeat ≠ .shutDown := by
  simp only [ServiceRun.State.step, ServiceRun.State.heartbeatStep] at hs
  intro hd
  split at hs <;> cases hs
  · split at hd <;> cases hd
  · cases hd
  · rename_i h
    rw [hlook h] at hd
    cases hd
  · cases hd

variable {b : ServiceRun.Behaviour} {s s' : Watching}

/-- A step of the service that does not look at the testbed. -/
theorem Judged.lift (h : Judged s) {l : ServiceRun.Step} (hs : s.lift b l = some s')
    (hdown : ∀ t, s.toState.step b l = some t → t.heartbeat = .shutDown → s.heartbeat = .shutDown) :
    Judged s' := by
  simp only [Watching.lift, Option.map_eq_some_iff] at hs
  obtain ⟨t, ht, rfl⟩ := hs
  exact ⟨h.dead, fun hd => h.cause (hdown t ht hd)⟩

theorem judged_step {l : WatchStep} (h : Judged s) (hs : s.step b l = some s') : Judged s' := by
  cases l with
  | run safe timestamp => exact h.lift hs fun t ht hd => heartbeat_other (by rintro _ _ ⟨⟩) ht hd
  | safety safe => exact h.lift hs fun t ht hd => heartbeat_other (by rintro _ _ ⟨⟩) ht hd
  | shutDown => exact h.lift hs fun t ht hd => heartbeat_other (by rintro _ _ ⟨⟩) ht hd
  | heartbeat m t timestamp =>
    simp only [Watching.step] at hs
    split at hs
    · split at hs
      · rename_i alive_timestamp alive hread halive
        obtain ⟨h', hread', rfl⟩ := isAlive_ok_iff.mp halive
        cases hread.symm.trans hread'
        simp only [Watching.lift, Option.map_eq_some_iff] at hs
        obtain ⟨s₁, hs₁, rfl⟩ := hs
        cases hrec : isRecent alive_timestamp t with
        | true =>
          rw [hrec] at hs₁
          exact ⟨h.dead, fun hd => absurd hd (heartbeat_own (fun _ => rfl) hs₁)⟩
        | false =>
          refine ⟨fun h₁ t₁ he => ?_, fun _ => nofun⟩
          cases he
          exact hrec
      · cases hs
    · exact h.lift hs fun t ht hd => absurd hd (heartbeat_own (fun _ => rfl) ht)

theorem judged_reachable (h : (monitorHeartbeats b).Reachable s) : Judged s := by
  have hnew : Judged ⟨.new, none⟩ := ⟨fun _ _ => nofun, nofun⟩
  have hstep : ∀ s l s', Judged s → (monitorHeartbeats b).step s l s' → Judged s' :=
    fun s l s' hj hs => judged_step hj (show s.step b l = some s' from hs)
  exact LTS.Inductive.reachable ⟨fun s hs => hs ▸ hnew, hstep⟩ s h

/-- A look at a heartbeat that counts as too old is the thread's last. -/
theorem look_dead (hlook : s.heartbeat = .look) (beats : List Heartbeat) (beat : Heartbeat) (t timestamp : UInt64)
    (hdead : isRecent beat.timestamp t = false) :
    ∃ s', s.step b (.heartbeat (heartbeatStream (beats ++ [beat])) t timestamp) = some s' ∧
      s'.heartbeat = .shutDown ∧ s'.shutDownFor = some (beat.timestamp, t) := by
  have halive := isAlive_heartbeats beats beat t
  rw [hdead] at halive
  have hread := aliveTimestamp_heartbeats beats beat
  refine ⟨{ s with heartbeat := .shutDown, shutDownFor := some (beat.timestamp, t) }, ?_, rfl, rfl⟩
  simp only [Watching.step, hlook, hread, halive]
  simp [Watching.lift, ServiceRun.State.step, ServiceRun.State.heartbeatStep, hlook]

/-- **The testbed counts as dead only after 30 s, where the age does not wrap.**
For a heartbeat stream whose newest heartbeat is `h`, `IsAlive` at time `t` is
false only for an age of 30 s or more exactly where the two are in step. In every
run of a service, one that was shut down for them was shut down for a heartbeat
newer than the clock exactly where they are not. -/
theorem isAlive_sound_iff (h t : UInt64) :
    (∀ beats submitted, (isAlive (heartbeatStream (beats ++ [⟨h, submitted⟩])) t = .ok false →
      (30 * 10 ^ 9 : ℤ) ≤ (t.toNat : ℤ) - h.toNat) ↔ InStep h t) ∧
    ∀ b s, (monitorHeartbeats b).Reachable s → s.shutDownFor = some (h, t) → (t < h ↔ ¬ InStep h t) := by
  constructor
  · intro beats submitted
    rw [isAlive_heartbeats, ← isRecent_sound_iff, Except.ok.injEq]
    exact Iff.rfl
  · intro b s hs hdown
    exact newer_iff ((judged_reachable hs).dead h t hdown)

/-- The clock is set back by a second after a heartbeat. -/
theorem set_back_is_dead : ∃ h t : UInt64, (h.toNat : ℤ) - t.toNat = 10 ^ 9 ∧
    isAlive (heartbeatStream [⟨h, h⟩]) t = .ok false ∧
      ∃ s, (monitorHeartbeats ⟨some false, .returns, .returns, .returns⟩).Reachable s ∧
        s.shutDownFor = some (h, t) := by
  have hdead : isRecent 1700000001000000000 1700000000000000000 = false := by
    rw [Bool.eq_false_iff, ne_eq, isRecent_iff]
    decide
  refine ⟨1700000001000000000, 1700000000000000000, by decide,
    (isAlive_heartbeats [] ⟨1700000001000000000, 1700000001000000000⟩ _).trans (by rw [hdead]), ?_⟩
  obtain ⟨s₀, hs₀, hlook⟩ : ∃ s₀, LTS.exec (Watching.step ⟨some false, .returns, .returns, .returns⟩) ⟨.new, none⟩
      (List.replicate 7 (.run true 0) ++ List.replicate 2 (.heartbeat (.error "") 0 0)) = some s₀ ∧
      s₀.heartbeat = .look := ⟨_, rfl, rfl⟩
  have hr₀ : (monitorHeartbeats ⟨some false, .returns, .returns, .returns⟩).Reachable s₀ := .of_exec rfl hs₀
  obtain ⟨s, hs, -, hfor⟩ := look_dead hlook [] ⟨_, 1700000001000000000⟩ _ 0 hdead
  exact ⟨s, hr₀.step hs, hfor⟩

end Catkit2.L4
