import Catkit2.Core.LTS
import Mathlib.Algebra.Order.Floor.Ring
import Mathlib.Data.Rat.Floor
import Mathlib.Logic.Function.Basic
import Mathlib.Tactic.NormNum

/-!
# The edges of the VARIA (catkit2/testbed/proxies/nkt_superk.py, services/nkt_superk/nkt_superk.py)

The filter lets through what lies between its two edges. `set_spectrum` checks
that they are in order and then submits them one after the other; for each
edge, a thread of the service takes the newest frame of its stream and writes
it to the device. The threads know nothing of each other.

Arithmetic is exact, over any ordered field in which numbers have a floor; the
registers hold the integers that `write_register` makes of the frames. One
client makes the calls, so what it reads of the streams is what it submitted
last, and a call is two steps at most, one for each submission. A call that
raises submits nothing.

* `registers_step`: no step makes new values for a register to hold.
* `reach_registers`: any two of the values meet in the device in some run.
* `varia_safe_iff`: the edges are in order in every state of every run exactly
  when every value of the lower edge is below every value of the upper one.
-/
namespace Catkit2.L5.Varia

inductive Edge where
  | lwp | swp
  deriving DecidableEq, Repr

/-! ## The client -/

/-- The arguments of a call of `set_spectrum`, `None` where not given. -/
structure SpectrumCall (K : Type) where
  centerWavelength : Option K
  bandwidth : Option K

/-- What a call does: it raises, it returns at once, or it submits two frames. -/
inductive SetSpectrum (K : Type) where
  | raises
  | returns
  | submits (lwp swp : K)

variable {K : Type} [Field K] [LinearOrder K]

/-- `np.allclose(a, b)` -/
def allclose (a b : K) : Prop := |a - b| ≤ 1 / (10 ^ 8 : ℕ) + 1 / (10 ^ 5 : ℕ) * |b|

instance (a b : K) : Decidable (allclose a b) := inferInstanceAs (Decidable (_ ≤ _))

/-- mirrors catkit2/testbed/proxies/nkt_superk.py:8-10, 16-18, 24-59 -/
def setSpectrum (c : SpectrumCall K) (currentLwp currentSwp : K) : SetSpectrum K :=
  let centerWavelength := c.centerWavelength.getD ((currentSwp + currentLwp) / (2 : ℕ))
  let bandwidth := c.bandwidth.getD (currentSwp - currentLwp)
  -- negative bandwidths are considered dangerous
  if bandwidth < 0 then .raises
  else
    let lwp := centerWavelength - bandwidth / (2 : ℕ)
    let swp := centerWavelength + bandwidth / (2 : ℕ)
    if allclose lwp currentLwp ∧ allclose swp currentSwp then .returns
    else .submits lwp swp

/-- The pairs that calls submit, one after the other, after `(lwp, swp)`. -/
def bands (lwp swp : K) : List (SpectrumCall K) → List (K × K)
  | [] => []
  | c :: calls =>
    match setSpectrum c lwp swp with
    | .submits lwp swp => (lwp, swp) :: bands lwp swp calls
    | _ => bands lwp swp calls

/-! ## The service -/

/-- `int(value / ratio)` of `write_register`, with the ratio 0.1 of both edges.
mirrors catkit2/services/nkt_superk/nkt_superk.py:75-89, 267-268 -/
def registerValue [FloorRing K] (value : K) : Int :=
  if 0 ≤ value / (1 / (10 : ℕ)) then ⌊value / (1 / (10 : ℕ))⌋ else ⌈value / (1 / (10 : ℕ))⌉

/-- In `get_next_frame`, in the setter, or ended by a failed write. -/
inductive Monitor (K : Type) where
  | waiting
  | holds (value : K)
  | dead

/-- `midway` is the upper edge that a call has still to submit. `unread` tells
whether the newest frame is one that the monitor has not taken. -/
structure State (K : Type) where
  calls : List (SpectrumCall K)
  midway : Option K
  newest : Edge → K
  unread : Edge → Bool
  monitor : Edge → Monitor K
  device : Edge → Int

inductive Label where
  /-- The client's next submission, or a call without one. -/
  | client
  /-- `get_next_frame` of a monitor returns. -/
  | take (e : Edge)
  /-- The setter of a monitor writes; the device may refuse. -/
  | write (e : Edge) (accepted : Bool)
  deriving DecidableEq, Repr

namespace State

/-- `submit_data` -/
def submit (s : State K) (e : Edge) (value : K) : State K :=
  { s with
    newest := Function.update s.newest e value
    unread := Function.update s.unread e true }

variable [FloorRing K]

/-- mirrors catkit2/testbed/proxies/nkt_superk.py:58-59,
catkit2/services/nkt_superk/nkt_superk.py:213-223 -/
def step (s : State K) : Label → Option (State K)
  | .client =>
    match s.midway with
    | some swp => some { s.submit .swp swp with midway := none }
    | none =>
      match s.calls with
      | [] => none
      | c :: calls =>
        match setSpectrum c (s.newest .lwp) (s.newest .swp) with
        | .submits lwp swp => some { s.submit .lwp lwp with calls := calls, midway := some swp }
        | _ => some { s with calls := calls }
  | .take e =>
    match s.monitor e with
    | .waiting =>
      if s.unread e then
        some { s with
          unread := Function.update s.unread e false
          monitor := Function.update s.monitor e (.holds (s.newest e)) }
      else none
    | _ => none
  | .write e accepted =>
    match s.monitor e with
    | .holds value =>
      if accepted then
        some { s with
          monitor := Function.update s.monitor e .waiting
          device := Function.update s.device e (registerValue value) }
      else some { s with monitor := Function.update s.monitor e .dead }
    | _ => none

end State

/-- The device and the streams when the monitors start, and the calls to come. -/
def start (device : Edge → Int) (newest : Edge → K) (unread : Edge → Bool) (calls : List (SpectrumCall K)) :
    State K :=
  ⟨calls, none, newest, unread, fun _ => .waiting, device⟩

def varia [FloorRing K] (s₀ : State K) : LTS (State K) Label := .ofFn (· = s₀) State.step

/-! ## What a register may come to hold -/

namespace State

/-- The pairs that calls to come will submit. -/
def bandsAhead (s : State K) : List (K × K) :=
  bands (s.newest .lwp) (s.midway.getD (s.newest .swp)) s.calls

/-- The frames of an edge still to be submitted. -/
def ahead (s : State K) : Edge → List K
  | .lwp => s.bandsAhead.map Prod.fst
  | .swp => s.midway.toList ++ s.bandsAhead.map Prod.snd

/-- The frame that a monitor has taken. -/
def held (s : State K) (e : Edge) : List K :=
  match s.monitor e with
  | .holds value => [value]
  | _ => []

/-- The frame that a monitor would take. -/
def waiting (s : State K) (e : Edge) : List K := if s.unread e then [s.newest e] else []

omit [Field K] [LinearOrder K] in
theorem waiting_submit_self (s : State K) (e : Edge) (value : K) : (s.submit e value).waiting e = [value] := by
  unfold waiting submit
  simp only [Function.update_self, if_true]

omit [Field K] [LinearOrder K] in
theorem waiting_submit_of_ne (s : State K) {e e' : Edge} (h : e' ≠ e) (value : K) :
    (s.submit e value).waiting e' = s.waiting e' := by
  unfold waiting submit
  simp only [Function.update_of_ne h]

variable [FloorRing K]

/-- The register of an edge: what it holds, and what it may come to hold. -/
def registers (s : State K) (e : Edge) : List Int :=
  s.device e :: (s.held e ++ s.waiting e ++ s.ahead e).map registerValue

theorem mem_registers {s : State K} {e : Edge} {r : Int} :
    r ∈ s.registers e ↔
      r = s.device e ∨ ∃ v, (v ∈ s.held e ∨ v ∈ s.waiting e ∨ v ∈ s.ahead e) ∧ registerValue v = r := by
  simp only [registers, List.mem_cons, List.mem_map, List.mem_append, or_assoc]

/-! ## No new values -/

/-- Where the frames of an edge come from, a step at most moves them on. -/
theorem registers_subset {s s' : State K} {e : Edge} (hdevice : s'.device e ∈ s.registers e)
    (hframes : ∀ v, v ∈ s'.held e ∨ v ∈ s'.waiting e ∨ v ∈ s'.ahead e →
      v ∈ s.held e ∨ v ∈ s.waiting e ∨ v ∈ s.ahead e) : ∀ r ∈ s'.registers e, r ∈ s.registers e := by
  intro r hr
  rcases mem_registers.mp hr with rfl | ⟨v, hv, rfl⟩
  · exact hdevice
  · exact mem_registers.mpr (.inr ⟨v, hframes v hv, rfl⟩)

theorem device_mem_registers (s : State K) (e : Edge) : s.device e ∈ s.registers e := List.mem_cons_self

/-- What the client does in one step. -/
theorem client_cases {s s' : State K} (h : s.step .client = some s') :
    (∃ swp, s.midway = some swp ∧ s' = { s.submit .swp swp with midway := none }) ∨
    (∃ c calls, s.midway = none ∧ s.calls = c :: calls ∧
      ((∃ lwp swp, setSpectrum c (s.newest .lwp) (s.newest .swp) = .submits lwp swp ∧
          s' = { s.submit .lwp lwp with calls := calls, midway := some swp }) ∨
        ((∀ lwp swp, setSpectrum c (s.newest .lwp) (s.newest .swp) ≠ .submits lwp swp) ∧
          s' = { s with calls := calls }))) := by
  simp only [step] at h
  split at h
  · rename_i swp hm
    cases h
    exact .inl ⟨swp, hm, rfl⟩
  · rename_i hm
    split at h
    · cases h
    · rename_i c calls hc
      split at h
      · rename_i lwp swp hset
        cases h
        exact .inr ⟨c, calls, hm, hc, .inl ⟨lwp, swp, hset, rfl⟩⟩
      · rename_i hset
        cases h
        exact .inr ⟨c, calls, hm, hc, .inr ⟨hset, rfl⟩⟩

/-- What a step of the client makes of the frames to come: those of an edge
are as they were, or the next of them now waits in its stream. -/
theorem client_frames {s s' : State K} (h : s.step .client = some s') (e : Edge) :
    (s'.waiting e = s.waiting e ∧ s'.ahead e = s.ahead e) ∨
      ∃ v, s'.waiting e = [v] ∧ s.ahead e = v :: s'.ahead e := by
  have hls : Edge.lwp ≠ Edge.swp := by decide
  rcases client_cases h with ⟨swp, hm, rfl⟩ | ⟨c, calls, hm, hc, ⟨lwp, swp, hset, rfl⟩ | ⟨hset, rfl⟩⟩
  · have hbands : s.bandsAhead = bandsAhead { s.submit .swp swp with midway := none } := by
      unfold bandsAhead
      rw [hm]
      rfl
    cases e with
    | lwp => exact .inl ⟨waiting_submit_of_ne s hls swp, congrArg (List.map Prod.fst) hbands.symm⟩
    | swp =>
      refine .inr ⟨swp, waiting_submit_self s .swp swp, ?_⟩
      show s.midway.toList ++ s.bandsAhead.map Prod.snd = _
      rw [hm, hbands]
      rfl
  · have hbands : s.bandsAhead =
        (lwp, swp) :: bandsAhead { s.submit .lwp lwp with calls := calls, midway := some swp } := by
      unfold bandsAhead
      rw [hm, hc]
      show bands (s.newest .lwp) (s.newest .swp) (c :: calls) = _
      rw [bands, hset]
      rfl
    cases e with
    | lwp => exact .inr ⟨lwp, waiting_submit_self s .lwp lwp, congrArg (List.map Prod.fst) hbands⟩
    | swp =>
      refine .inl ⟨waiting_submit_of_ne s hls.symm lwp, ?_⟩
      show _ = s.midway.toList ++ s.bandsAhead.map Prod.snd
      rw [hm, hbands]
      rfl
  · have hbands : bandsAhead { s with calls := calls } = s.bandsAhead := by
      unfold bandsAhead
      rw [hm, hc]
      show bands (s.newest .lwp) (s.newest .swp) calls = bands (s.newest .lwp) (s.newest .swp) (c :: calls)
      rw [bands]
      split
      · rename_i lwp swp he
        exact absurd he (hset lwp swp)
      · rfl
    refine .inl ⟨rfl, ?_⟩
    cases e with
    | lwp => exact congrArg (List.map Prod.fst) hbands
    | swp => exact congrArg (fun l => s.midway.toList ++ l.map Prod.snd) hbands

/-- The client writes no register, and leaves the monitors alone. -/
theorem client_device {s s' : State K} (h : s.step .client = some s') :
    s'.device = s.device ∧ s'.monitor = s.monitor := by
  rcases client_cases h with ⟨_, -, rfl⟩ | ⟨_, _, -, -, ⟨_, _, -, rfl⟩ | ⟨-, rfl⟩⟩ <;> exact ⟨rfl, rfl⟩

/-- The client moves the frames of an edge on to its stream. -/
theorem registers_client {s s' : State K} (h : s.step .client = some s') (e : Edge) :
    ∀ r ∈ s'.registers e, r ∈ s.registers e := by
  obtain ⟨hdevice, hmonitor⟩ := client_device h
  have hheld : s'.held e = s.held e := by
    unfold held
    rw [hmonitor]
  refine registers_subset (hdevice ▸ device_mem_registers s e) fun v hv => ?_
  rw [hheld] at hv
  rcases client_frames h e with ⟨hw, ha⟩ | ⟨w, hw, ha⟩
  · rwa [hw, ha] at hv
  · rw [hw] at hv
    rw [ha]
    rcases hv with hv | hv | hv
    · exact .inl hv
    · exact .inr (.inr (List.mem_singleton.mp hv ▸ List.mem_cons_self))
    · exact .inr (.inr (List.mem_cons_of_mem w hv))

/-- A monitor moves the frame that waits to its hand. -/
theorem registers_take {s s' : State K} {e' : Edge} (h : s.step (.take e') = some s') (e : Edge) :
    ∀ r ∈ s'.registers e, r ∈ s.registers e := by
  simp only [step] at h
  split at h
  · split at h
    · rename_i hunread
      cases h
      refine registers_subset (device_mem_registers s e) fun v hv => ?_
      by_cases he : e = e'
      · subst he
        simp only [held, waiting, Function.update_self] at hv
        rcases hv with hv | hv | hv
        · exact .inr (.inl (by rw [waiting, if_pos hunread]; exact hv))
        · exact absurd hv List.not_mem_nil
        · exact .inr (.inr hv)
      · simp only [held, waiting, Function.update_of_ne he] at hv
        exact hv
    · cases h
  · cases h

/-- A monitor moves the frame in its hand to the device, or loses it. -/
theorem registers_write {s s' : State K} {e' : Edge} {accepted : Bool}
    (h : s.step (.write e' accepted) = some s') (e : Edge) : ∀ r ∈ s'.registers e, r ∈ s.registers e := by
  simp only [step] at h
  split at h
  · rename_i value hholds
    by_cases he : e = e'
    · subst he
      have hvalue : registerValue value ∈ s.registers e :=
        mem_registers.mpr (.inr ⟨value, .inl (by rw [held, hholds]; exact List.mem_cons_self), rfl⟩)
      split at h
      · cases h
        refine registers_subset (by simp only [Function.update_self]; exact hvalue) fun v hv => ?_
        simp only [held, Function.update_self] at hv
        exact .inr (hv.resolve_left List.not_mem_nil)
      · cases h
        refine registers_subset (device_mem_registers s e) fun v hv => ?_
        simp only [held, Function.update_self] at hv
        exact .inr (hv.resolve_left List.not_mem_nil)
    · split at h
      · cases h
        refine registers_subset ?_ fun v hv => ?_
        · simp only [Function.update_of_ne he]
          exact device_mem_registers s e
        · simp only [held, Function.update_of_ne he] at hv
          exact hv
      · cases h
        refine registers_subset (device_mem_registers s e) fun v hv => ?_
        simp only [held, Function.update_of_ne he] at hv
        exact hv
  · cases h

/-- **One step** brings no new value to any register. -/
theorem registers_step {s s' : State K} {l : Label} (h : s.step l = some s') (e : Edge) :
    ∀ r ∈ s'.registers e, r ∈ s.registers e := by
  cases l with
  | client => exact registers_client h e
  | take _ => exact registers_take h e
  | write _ _ => exact registers_write h e

/-- **A run**: what a register holds at its end was there to come at its start. -/
theorem registers_run {s₀ s : State K} {ls : List Label} (h : (varia s₀).Run s₀ ls s) (e : Edge) :
    ∀ r ∈ s.registers e, r ∈ s₀.registers e :=
  h.preserves (I := fun s => ∀ r ∈ s.registers e, r ∈ s₀.registers e)
    (fun _ _ _ ih hs r hr => ih r (registers_step hs e r hr)) fun _ hr => hr

/-! ## Any two values meet -/

/-- Neither monitor has a frame in hand. -/
def Idle (s : State K) : Prop := ∀ e, s.monitor e = .waiting

/-- How many steps the client has at most. -/
def clientSteps (s : State K) : Nat := 2 * s.calls.length + s.midway.toList.length

theorem exists_client_step {s : State K} (h : s.clientSteps ≠ 0) :
    ∃ s', s.step .client = some s' ∧ s'.clientSteps < s.clientSteps := by
  cases hm : s.midway with
  | some swp =>
    refine ⟨{ s.submit .swp swp with midway := none }, by simp only [step, hm], ?_⟩
    simp [clientSteps, hm, submit]
  | none =>
    cases hc : s.calls with
    | nil =>
      rw [clientSteps, hm, hc] at h
      exact absurd rfl h
    | cons c calls =>
      cases hset : setSpectrum c (s.newest .lwp) (s.newest .swp) with
      | submits lwp swp =>
        refine ⟨{ s.submit .lwp lwp with calls := calls, midway := some swp }, by simp only [step, hm, hc, hset], ?_⟩
        simp only [clientSteps, hm, hc, List.length_cons, Option.toList_some, Option.toList_none, List.length_nil]
        omega
      | raises | returns =>
        refine ⟨{ s with calls := calls }, by simp only [step, hm, hc, hset], ?_⟩
        simp only [clientSteps, hm, hc, List.length_cons, Option.toList_none, List.length_nil]
        omega

omit [FloorRing K] in
/-- A client that is done has nothing to submit. -/
theorem ahead_of_done {s : State K} (h : s.clientSteps = 0) (e : Edge) : s.ahead e = [] := by
  have hm : s.midway = none := by
    cases hm : s.midway with
    | none => rfl
    | some swp =>
      rw [clientSteps, hm, Option.toList_some, List.length_singleton] at h
      omega
  have hc : s.calls = [] := by
    refine List.eq_nil_of_length_eq_zero ?_
    unfold clientSteps at h
    omega
  have hbands : s.bandsAhead = [] := by
    unfold bandsAhead
    rw [hc]
    rfl
  cases e with
  | lwp => exact congrArg (List.map Prod.fst) hbands
  | swp =>
    show s.midway.toList ++ s.bandsAhead.map Prod.snd = []
    rw [hm, hbands]
    rfl

/-- Two states that differ in the registers and in what the monitors have taken. -/
structure SameClient (s s' : State K) : Prop where
  calls : s'.calls = s.calls
  midway : s'.midway = s.midway
  newest : s'.newest = s.newest

omit [FloorRing K] in
theorem SameClient.ahead {s s' : State K} (h : SameClient s s') (e : Edge) : s'.ahead e = s.ahead e := by
  have hbands : s'.bandsAhead = s.bandsAhead := by
    unfold bandsAhead
    rw [h.calls, h.midway, h.newest]
  cases e with
  | lwp => exact congrArg (List.map Prod.fst) hbands
  | swp =>
    show s'.midway.toList ++ s'.bandsAhead.map Prod.snd = _
    rw [h.midway, hbands]
    rfl

/-- The register holds `r`, or a frame to come brings it. -/
def Nears (s : State K) (e : Edge) (r : Int) : Prop := s.device e = r ∨ r ∈ (s.ahead e).map registerValue

theorem Nears.mem_registers {s : State K} {e : Edge} {r : Int} (h : s.Nears e r) : r ∈ s.registers e := by
  rcases h with rfl | h
  · exact s.device_mem_registers e
  · obtain ⟨v, hv, rfl⟩ := List.mem_map.mp h
    exact State.mem_registers.mpr (.inr ⟨v, .inr (.inr hv), rfl⟩)

variable {s₀ : State K}

/-- **One edge**: its monitor brings a value that waits in the stream to the
device; the other edge and the client see nothing of it. -/
theorem bring {s : State K} (h : s.Idle) {e : Edge} {r : Int} (hr : r ∈ s.registers e) :
    ∃ s' ls, (varia s₀).Run s ls s' ∧ s'.Idle ∧ SameClient s s' ∧ s'.Nears e r ∧
      ∀ e', e' ≠ e → s'.device e' = s.device e' ∧ s'.unread e' = s.unread e' := by
  have hstay : s.Nears e r → ∃ s' ls, (varia s₀).Run s ls s' ∧ s'.Idle ∧ SameClient s s' ∧ s'.Nears e r ∧
      ∀ e', e' ≠ e → s'.device e' = s.device e' ∧ s'.unread e' = s.unread e' :=
    fun hn => ⟨s, [], .nil s, h, ⟨rfl, rfl, rfl⟩, hn, fun _ _ => ⟨rfl, rfl⟩⟩
  rcases mem_registers.mp hr with hd | ⟨v, hv | hv | hv, hvr⟩
  · exact hstay (.inl hd.symm)
  · rw [held, h e] at hv
    exact absurd hv List.not_mem_nil
  · -- the frame waits: take it and write it
    unfold waiting at hv
    split at hv
    · rename_i hunread
      obtain rfl := List.mem_singleton.mp hv
      let taken : State K :=
        { s with
          unread := Function.update s.unread e false
          monitor := Function.update s.monitor e (.holds (s.newest e)) }
      let written : State K :=
        { taken with
          monitor := Function.update taken.monitor e .waiting
          device := Function.update s.device e (registerValue (s.newest e)) }
      have htake : s.step (.take e) = some taken := by
        simp only [step, h e, hunread, if_true]
        rfl
      have hwrite : taken.step (.write e true) = some written := by
        have hholds : taken.monitor e = .holds (s.newest e) := Function.update_self ..
        simp only [step, hholds, if_true]
        rfl
      refine ⟨written, _, .cons htake (.cons hwrite (.nil written)), fun e' => ?_, ⟨rfl, rfl, rfl⟩,
        .inl ((Function.update_self ..).trans hvr), fun e' he => ⟨Function.update_of_ne he _ _,
          Function.update_of_ne he _ _⟩⟩
      by_cases he : e' = e
      · rw [he]
        exact Function.update_self ..
      · exact (Function.update_of_ne he _ _).trans ((Function.update_of_ne he _ _).trans (h e'))
    · exact absurd hv List.not_mem_nil
  · exact hstay (.inr (List.mem_map.mpr ⟨v, hv, hvr⟩))

/-- Both edges, one after the other. -/
theorem bring_both {s : State K} (h : s.Idle) {target : Edge → Int} (ht : ∀ e, target e ∈ s.registers e) :
    ∃ s' ls, (varia s₀).Run s ls s' ∧ s'.Idle ∧ s'.clientSteps = s.clientSteps ∧ ∀ e, s'.Nears e (target e) := by
  obtain ⟨s₁, ls₁, hrun₁, hidle₁, hsame₁, hlwp, hother₁⟩ := bring h (ht .lwp)
  have hswp : target .swp ∈ s₁.registers .swp := by
    obtain ⟨hdevice, hunread⟩ := hother₁ .swp (by decide)
    have hregisters : s₁.registers .swp = s.registers .swp := by
      unfold registers held waiting
      rw [hdevice, hunread, hsame₁.newest, hsame₁.ahead, hidle₁, h]
    exact hregisters ▸ ht .swp
  obtain ⟨s₂, ls₂, hrun₂, hidle₂, hsame₂, hswp, hother₂⟩ := bring hidle₁ hswp
  refine ⟨s₂, _, hrun₁.append hrun₂, hidle₂, ?_, fun e => ?_⟩
  · unfold clientSteps
    rw [hsame₂.calls, hsame₂.midway, hsame₁.calls, hsame₁.midway]
  · cases e with
    | lwp =>
      unfold Nears
      rw [(hother₂ .lwp (by decide)).1, hsame₂.ahead]
      exact hlwp
    | swp => exact hswp

/-- A step of the client brings every frame to come nearer. -/
theorem mem_registers_client {s s' : State K} (h : s.step .client = some s') {e : Edge} {r : Int}
    (hr : s.Nears e r) : r ∈ s'.registers e := by
  rcases hr with rfl | hr
  · rw [← (client_device h).1]
    exact s'.device_mem_registers e
  · obtain ⟨v, hv, rfl⟩ := List.mem_map.mp hr
    refine mem_registers.mpr (.inr ⟨v, .inr ?_, rfl⟩)
    rcases client_frames h e with ⟨-, ha⟩ | ⟨w, hw, ha⟩
    · exact .inr (ha ▸ hv)
    · rw [ha] at hv
      rcases List.mem_cons.mp hv with rfl | hv
      · exact .inl (hw ▸ List.mem_singleton_self v)
      · exact .inr hv

/-- **Any two values**, one for each register, meet in the device: what waits
is written at once, and then nothing moves that edge until the other is there.
By induction on the steps of the client. -/
theorem reach_registers : ∀ (n : Nat) {s : State K}, s.clientSteps ≤ n → s.Idle → ∀ {target : Edge → Int},
    (∀ e, target e ∈ s.registers e) → ∃ s' ls, (varia s₀).Run s ls s' ∧ ∀ e, s'.device e = target e := by
  intro n
  induction n with
  | zero =>
    intro s hn h target ht
    obtain ⟨s', ls, hrun, -, hsteps, hnears⟩ := bring_both h ht
    refine ⟨s', ls, hrun, fun e => (hnears e).resolve_right fun hr => ?_⟩
    rw [ahead_of_done (hsteps.trans (Nat.le_zero.mp hn))] at hr
    exact List.not_mem_nil hr
  | succ n ih =>
    intro s hn h target ht
    obtain ⟨s₁, ls₁, hrun₁, hidle₁, hsteps, hnears⟩ := bring_both h ht
    by_cases hdone : s₁.clientSteps = 0
    · refine ⟨s₁, ls₁, hrun₁, fun e => (hnears e).resolve_right fun hr => ?_⟩
      rw [ahead_of_done hdone] at hr
      exact List.not_mem_nil hr
    · obtain ⟨s₂, hstep, hlt⟩ := exists_client_step hdone
      have hidle₂ : s₂.Idle := fun e => by rw [(client_device hstep).2, hidle₁]
      obtain ⟨s₃, ls₃, hrun₃, htarget⟩ :=
        ih (by omega) hidle₂ fun e => mem_registers_client hstep (hnears e)
      exact ⟨s₃, _, hrun₁.append (.cons hstep hrun₃), htarget⟩

end State

/-! ## Negative bandwidths -/

/-- **The device** holds the edges in order in every state of every run exactly
when every value that the lower register holds or may be given is at most every
such value of the upper one. -/
theorem varia_safe_iff [FloorRing K] (device : Edge → Int) (newest : Edge → K) (unread : Edge → Bool)
    (calls : List (SpectrumCall K)) :
    let s₀ := start device newest unread calls
    (∀ s, (varia s₀).Reachable s → s.device .lwp ≤ s.device .swp) ↔
      ∀ l ∈ s₀.registers .lwp, ∀ r ∈ s₀.registers .swp, l ≤ r := by
  intro s₀
  constructor
  · intro h l hl r hr
    let target : Edge → Int
      | .lwp => l
      | .swp => r
    have ht : ∀ e, target e ∈ s₀.registers e := by
      intro e
      cases e with
      | lwp => exact hl
      | swp => exact hr
    obtain ⟨s, ls, hrun, htarget⟩ :=
      State.reach_registers s₀.clientSteps (Nat.le_refl _) (fun _ => rfl) ht
    have hsafe := h s ⟨s₀, ls, rfl, hrun⟩
    rw [htarget .lwp, htarget .swp] at hsafe
    exact hsafe
  · rintro h s ⟨_, ls, rfl, hrun⟩
    exact h _ (State.registers_run hrun .lwp _ (s.device_mem_registers .lwp))
      _ (State.registers_run hrun .swp _ (s.device_mem_registers .swp))

/-- From 550 nm to 560 nm, all of it on the device already. -/
def narrow : Edge → ℚ
  | .lwp => 550
  | .swp => 560

/-- The same in the registers. -/
def narrowDevice : Edge → Int
  | .lwp => 5500
  | .swp => 5600

/-- `set_spectrum(655, 10)` moves the band up by more than its width. -/
def moveUp : List (SpectrumCall ℚ) := [⟨some 655, some 10⟩]

/-- The lower edge arrives first, and the bandwidth is -90 nm. -/
theorem moving_up_is_dangerous :
    (∃ s, (varia (start narrowDevice narrow (fun _ => false) moveUp)).Reachable s ∧
      s.device .lwp = 6500 ∧ s.device .swp = 5600) ∧
    ¬ ∀ (device : Edge → Int) (newest : Edge → ℚ) (unread : Edge → Bool) (calls : List (SpectrumCall ℚ)),
      device .lwp ≤ device .swp → ∀ s, (varia (start device newest unread calls)).Reachable s →
      s.device .lwp ≤ s.device .swp := by
  have hset : setSpectrum ⟨some 655, some 10⟩ (550 : ℚ) 560 = .submits 650 660 := by
    norm_num [setSpectrum, allclose]
  have hbands : bands (550 : ℚ) 560 moveUp = [(650, 660)] := by
    rw [moveUp, bands, hset]
    rfl
  have hvalue : registerValue (650 : ℚ) = 6500 := by
    norm_num [registerValue]
  let s₀ := start narrowDevice narrow (fun _ => false) moveUp
  have hlwp : (6500 : Int) ∈ s₀.registers .lwp := by
    refine State.mem_registers.mpr (.inr ⟨650, .inr (.inr ?_), hvalue⟩)
    show (650 : ℚ) ∈ (bands (550 : ℚ) 560 moveUp).map Prod.fst
    rw [hbands]
    exact List.mem_cons_self
  let target : Edge → Int
    | .lwp => 6500
    | .swp => 5600
  have ht : ∀ e, target e ∈ s₀.registers e := by
    intro e
    cases e with
    | lwp => exact hlwp
    | swp => exact s₀.device_mem_registers .swp
  obtain ⟨s, ls, hrun, htarget⟩ :=
    State.reach_registers s₀.clientSteps (Nat.le_refl _) (fun _ => rfl) ht
  have hreach : (varia s₀).Reachable s := ⟨s₀, ls, rfl, hrun⟩
  refine ⟨⟨s, hreach, htarget .lwp, htarget .swp⟩, fun h => ?_⟩
  have hsafe := h narrowDevice narrow (fun _ => false) moveUp (by decide) s hreach
  rw [htarget .lwp, htarget .swp] at hsafe
  exact absurd hsafe (by decide)

end Catkit2.L5.Varia
