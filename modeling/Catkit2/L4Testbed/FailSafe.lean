import Catkit2.Core.Deadline
import Catkit2.L3Service.SafetyMonitor
import Catkit2.L4Testbed.ServiceRun

/-!
# How long a service runs on an unsafe testbed (safety_monitor.py, Service.cpp)

The safety monitor submits its checks, whenever it gets to it. A service that
requires safety runs `ServiceRun`: one look before it opens, and then its thread
`MonitorSafety`, which looks, sleeps for 60 s and looks again. A look fetches the
newest frame of `is_safe` and judges it a moment later (`L3.isSafe`). Before it
can fetch the frame, `GetDataStream` may have to start the safety monitor, to wait
until it runs and to connect to it.

All clocks are one, read in ns (`now`). The bound holds under one hypothesis on
the runs (`onTime`): the clock does not go back, the safety thread leaves its
sleep at most `slack` after the 60 s, takes at most `look` for a look, and does
each other thing it does within `slack`. The time-outs on the way to the monitor
leave `lookLimit` and the slack for `look`. The main thread and the heartbeat
thread may take any time, and so may the safety monitor.

* `inv_step`: what the last look that found the testbed safe was.
* `fails_safe`: a service that was not told to shut down had a safe check in the
  last 240 s and the time of a look, or has just started.
* `safety_goes_on`: nothing keeps the safety thread from being on time.
-/
namespace Catkit2.L4.FailSafe

open Catkit2.L2 Catkit2.L3 ServiceRun

/-- `SAFETY_INTERVAL`, in ns.
mirrors catkit_core/Service.cpp:21 -/
def safetyInterval : Nat := 60 * 1000000000

/-- The request to start the safety monitor, the wait until it runs, and the two requests
to connect to it, in ns.
mirrors catkit_core/Client.cpp:17, ServiceProxy.cpp:13, 178-236, 273-301 -/
def lookLimit : Nat := (60 + 120 + 60 + 60) * 1000000000

/-- `found` is the frame that the look fetched, as the checks up to it, and `since`
the time at which the safety thread got where it is. -/
structure World extends ServiceRun.State where
  now : UInt64
  checks : List Check
  found : Option (Except String (List Check))
  since : UInt64
  started : UInt64

inductive Step where
  | tick (next : UInt64)
  | check (k : Check)
  | fetch (reached : Bool)
  | run
  | safety
  | heartbeat (alive : Bool)
  /-- A client, or the service's own code. -/
  | shutDown

/-- In `IsSafe`. -/
def looking (run : RunAt) (safety : SafetyAt) : Bool :=
  match run, safety with
  | .preCheck, _ | _, .look => true
  | _, _ => false

namespace World

variable (numpy : Numpy) (c : Safeties) (s₀ : DataStream) (b : Behaviour)

/-- A step of the service. -/
def lift (s : World) (l : ServiceRun.Step) : Option World :=
  (s.toState.step b l).map fun s' => { s with toState := s' }

/-- The frame is there, or not needed. -/
def fetched (s : World) : Bool := s.found.isSome || b.requires_safety != some true

/-- `s₀` is the stream that the safety monitor made.
mirrors catkit_core/Service.cpp:223-267 -/
def isSafe (s : World) : Bool :=
  match s.found with
  | some found => L3.isSafe true (found.map (monitor numpy c s₀)) s.now
  | none => false

def step (s : World) : Step → Option World
  | .tick next => some { s with now := next }
  | .check k => if k.submitted = s.now then some { s with checks := s.checks ++ [k] } else none
  | .fetch reached =>
    if looking s.run s.safety then
      some { s with found := some (if reached then .ok s.checks else .error "runtime_error") }
    else none
  | .run =>
    match s.run with
    | .preCheck =>
      if s.fetched b then { s with found := none }.lift b (.run (s.isSafe numpy c s₀) s.now) else none
    | .spawnSafety => { s with since := s.now, started := s.now }.lift b (.run false s.now)
    | _ => s.lift b (.run false s.now)
  | .safety =>
    match s.safety with
    | .look =>
      if s.fetched b then { s with found := none, since := s.now }.lift b (.safety (s.isSafe numpy c s₀)) else none
    | _ => { s with since := s.now }.lift b (.safety false)
  | .heartbeat alive => s.lift b (.heartbeat alive s.now)
  | .shutDown => s.lift b .shutDown

end World

def failSafe (numpy : Numpy) (c : Safeties) (s₀ : DataStream) (b : Behaviour) : LTS World Step :=
  .ofFn (fun s => ∃ now, s = ⟨.new, now, [], none, now, now⟩) (World.step numpy c s₀ b)

/-! ## Being on time -/

def active : SafetyAt → Bool
  | .unstarted | .ended => false
  | _ => true

/-- How long the safety thread stays where it is, at most. -/
def patience (look slack : Nat) : SafetyAt → Nat
  | .test => safetyInterval + slack
  | .look => look
  | _ => slack

def onTime (look slack : Nat) (s : World) : Step → Prop
  | .tick next =>
    s.now ≤ next ∧ (active s.safety = true → next.toNat ≤ s.since.toNat + patience look slack s.safety)
  | _ => True

/-- Every bit of the check is set. -/
def Safe (numpy : Numpy) (c : Safeties) (k : Check) : Prop := ∀ bit ∈ isSafes numpy c k, bit = true

/-- Until when the testbed may count as safe: for 180 s from a safe check, or
until the thread looks for the first time. -/
inductive SafeUntil (numpy : Numpy) (c : Safeties) (s : World) : Nat → Prop where
  | started : SafeUntil numpy c s s.started.toNat
  | checked (k : Check) : k ∈ s.checks → Safe numpy c k → SafeUntil numpy c s (k.submitted.toNat + 180 * 1000000000)

/-- How late the safety thread gets where it is. -/
def lateness (look slack : Nat) : SafetyAt → Nat
  | .look => safetyInterval + slack
  | .unsafeFound => safetyInterval + look + slack
  | .shutDown => safetyInterval + look + 2 * slack
  | _ => 0

structure Inv (numpy : Numpy) (c : Safeties) (look slack : Nat) (s : World) : Prop where
  past : ∀ k ∈ s.checks, k.submitted ≤ s.now
  found : ∀ l, s.found = some (.ok l) → ∀ k ∈ l, k ∈ s.checks
  deadline : active s.safety = true →
    MeetsDeadline (SafeUntil numpy c s) (lateness look slack s.safety) (patience look slack s.safety) s.since.toNat s.now.toNat
  ended : s.safety = .ended → s.shouldShutDown = true

variable {numpy : Numpy} {c : Safeties} {s₀ : DataStream} {b : Behaviour} {look slack : Nat} {s s' : World}

/-! ## Steps of the safety thread -/

/-- What is safe until then stays so. -/
theorem SafeUntil.mono {x : Nat} (h : SafeUntil numpy c s x) (hchecks : ∀ k ∈ s.checks, k ∈ s'.checks)
    (hstarted : s'.started = s.started) : SafeUntil numpy c s' x := by
  cases h with
  | started => exact hstarted ▸ .started
  | checked k hk hsafe => exact .checked k (hchecks k hk) hsafe

/-- A step of another thread: the safety thread is where it was. -/
theorem Inv.other (hi : Inv numpy c look slack s) (hsafety : s'.safety = s.safety) (hnow : s'.now = s.now)
    (hsince : s'.since = s.since) (hstarted : s'.started = s.started) (hchecks : s'.checks = s.checks)
    (hfound : s'.found = s.found ∨ s'.found = none) (hflag : s.shouldShutDown = true → s'.shouldShutDown = true) :
    Inv numpy c look slack s' := by
  refine ⟨?_, ?_, ?_, ?_⟩
  · rw [hchecks, hnow]; exact hi.past
  · rw [hchecks]
    intro l hl
    obtain hfound | hfound := hfound
    · exact hi.found l (hfound ▸ hl)
    · rw [hfound] at hl; cases hl
  · rw [hsafety, hnow, hsince]
    exact fun hact => (hi.deadline hact).mono fun x hx => hx.mono (fun k hk => hchecks ▸ hk) hstarted
  · rw [hsafety]
    exact fun hended => hflag (hi.ended hended)

/-- The safety thread gets to the next place now. -/
theorem Inv.goes (hi : Inv numpy c look slack s) (hnow : s'.now = s.now) (hsince : s'.since = s.now)
    (hchecks : s'.checks = s.checks) (hfound : s'.found = none ∨ s'.found = s.found)
    (htime : active s'.safety = true →
      MeetsDeadline (SafeUntil numpy c s') (lateness look slack s'.safety) (patience look slack s'.safety) s.now.toNat s.now.toNat)
    (hended : s'.safety = .ended → s'.shouldShutDown = true) : Inv numpy c look slack s' := by
  refine ⟨?_, ?_, ?_, hended⟩
  · rw [hchecks, hnow]; exact hi.past
  · rw [hchecks]
    intro l hl
    obtain hfound | hfound := hfound
    · rw [hfound] at hl; cases hl
    · exact hi.found l (hfound ▸ hl)
  · rw [hnow, hsince]; exact htime

/-- What a look that finds the testbed safe saw. -/
theorem safe_check (hs₀ : makeIsSafeStream c = .ok s₀) (hi : Inv numpy c look slack s) (h : s.isSafe numpy c s₀ = true) :
    ∃ x, SafeUntil numpy c s x ∧ s.now.toNat ≤ x := by
  unfold World.isSafe at h
  split at h
  · rename_i found hfound
    cases found with
    | error msg => simp [Except.map, L3.isSafe] at h
    | ok l =>
      obtain ⟨earlier, k, hl, hage, -, hall⟩ := (isSafe_iff numpy hs₀ l s.now).mp h
      have hk : k ∈ s.checks := hi.found l hfound k (by rw [hl]; simp)
      have hpast : k.submitted ≤ s.now := hi.past k hk
      rw [UInt64.toNat_sub_of_le _ _ hpast] at hage
      rw [UInt64.le_iff_toNat_le] at hpast
      exact ⟨_, .checked k hk hall, by omega⟩
  · cases h

theorem exists_of_lift {l : ServiceRun.Step} (hs : s.lift b l = some s') :
    ∃ t, s.toState.step b l = some t ∧ s' = { s with toState := t } := by
  simp only [World.lift, Option.map_eq_some_iff] at hs
  obtain ⟨t, ht, heq⟩ := hs
  exact ⟨t, ht, heq.symm⟩

theorem inv_run (hi : Inv numpy c look slack s) (hs : s.step numpy c s₀ b .run = some s') : Inv numpy c look slack s' := by
  simp only [World.step] at hs
  split at hs
  · rename_i hrun
    split at hs
    · obtain ⟨t, ht, heq⟩ := exists_of_lift hs
      subst heq
      exact hi.other (runStep_safety ht (by simp [hrun])) rfl rfl rfl rfl (.inr rfl) (runStep_shouldShutDown ht)
    · cases hs
  · rename_i hrun
    obtain ⟨t, ht, heq⟩ := exists_of_lift hs
    subst heq
    have hsafety : t.safety = .test := by
      simp only [ServiceRun.State.step, ServiceRun.State.runStep, hrun] at ht
      cases ht
      rfl
    refine hi.goes rfl rfl rfl (.inr rfl) (fun _ => .renew .started (Nat.le_add_right _ _)) (fun hended => ?_)
    rw [hsafety] at hended
    cases hended
  · rename_i hrun
    obtain ⟨t, ht, heq⟩ := exists_of_lift hs
    subst heq
    exact hi.other (runStep_safety ht hrun) rfl rfl rfl rfl (.inl rfl) (runStep_shouldShutDown ht)

/-- The thread left in time where it was, and so gets to the next place not much later. -/
theorem Inv.carry (hi : Inv numpy c look slack s) (pc : SafetyAt) (hact : active s.safety = true)
    (hle : lateness look slack s.safety + patience look slack s.safety ≤ lateness look slack pc) (hstarted : s'.started = s.started)
    (hchecks : s'.checks = s.checks) :
    MeetsDeadline (SafeUntil numpy c s') (lateness look slack pc) (patience look slack pc) s.now.toNat s.now.toNat :=
  ((hi.deadline hact).goes hle).mono fun _ hx => hx.mono (fun _ hk => hchecks ▸ hk) hstarted

/-- The look is the one step after which the testbed counts as safe again. -/
theorem inv_look (hs₀ : makeIsSafeStream c = .ok s₀) (hreq : b.requires_safety = some true) (hi : Inv numpy c look slack s)
    (hlook : s.safety = .look) (hs : s.step numpy c s₀ b .safety = some s') : Inv numpy c look slack s' := by
  simp only [World.step, hlook] at hs
  split at hs
  · obtain ⟨t, ht, heq⟩ := exists_of_lift hs
    simp only [ServiceRun.State.step, ServiceRun.State.safetyStep, hlook, Behaviour.IsSafe, hreq,
      Option.some.injEq] at ht
    subst heq
    subst ht
    cases hsafe : s.isSafe numpy c s₀ with
    | true =>
      obtain ⟨x, hx, hle⟩ := safe_check hs₀ hi hsafe
      exact hi.goes rfl rfl rfl (.inl rfl) (fun _ => .renew (hx.mono (fun _ hk => hk) rfl) hle) (fun h => by cases h)
    | false =>
      refine hi.goes rfl rfl rfl (.inl rfl) (fun _ => ?_) (fun h => by cases h)
      refine hi.carry .unsafeFound (by rw [hlook]; rfl) ?_ rfl rfl
      simp only [hlook, lateness, patience]
      omega
  · cases hs

theorem inv_safety (hs₀ : makeIsSafeStream c = .ok s₀) (hreq : b.requires_safety = some true) (hi : Inv numpy c look slack s)
    (hs : s.step numpy c s₀ b .safety = some s') : Inv numpy c look slack s' := by
  by_cases hlook : s.safety = .look
  · exact inv_look hs₀ hreq hi hlook hs
  simp only [World.step] at hs
  obtain ⟨t, ht, heq⟩ := exists_of_lift hs
  simp only [ServiceRun.State.step, ServiceRun.State.safetyStep] at ht
  split at ht <;> rename_i hat
  · cases ht
    subst heq
    refine hi.goes rfl rfl rfl (.inr rfl) (fun hact => ?_) (fun hended => ?_)
    · by_cases hdown : s.shouldShutDown = true
      · simp only [hdown, if_true] at hact
        cases hact
      · simp only [hdown]
        refine hi.carry .look (by rw [hat]; rfl) ?_ rfl rfl
        simp only [hat, lateness, patience]
        omega
    · by_cases hdown : s.shouldShutDown = true
      · exact hdown
      · simp [hdown] at hended
  · exact absurd hat hlook
  · cases ht
    subst heq
    refine hi.goes rfl rfl rfl (.inr rfl) (fun _ => ?_) (fun h => by cases h)
    refine hi.carry .shutDown (by rw [hat]; rfl) ?_ rfl rfl
    simp only [hat, lateness, patience]
    omega
  · cases ht
    subst heq
    exact hi.goes rfl rfl rfl (.inr rfl) (fun h => by cases h) (fun _ => rfl)
  · cases ht
  · cases ht

theorem inv_step (hs₀ : makeIsSafeStream c = .ok s₀) (hreq : b.requires_safety = some true) (hi : Inv numpy c look slack s)
    {l : Step} (hon : onTime look slack s l) (hs : s.step numpy c s₀ b l = some s') : Inv numpy c look slack s' := by
  cases l with
  | tick next =>
    cases hs
    exact ⟨fun k hk => UInt64.le_trans (hi.past k hk) hon.1, hi.found,
      fun hact => ((hi.deadline hact).tick (hon.2 hact)).mono fun _ hx => hx.mono (fun _ hk => hk) rfl, hi.ended⟩
  | check k =>
    simp only [World.step] at hs
    split at hs <;> rename_i hnow <;> cases hs
    have hmem : ∀ k' ∈ s.checks, k' ∈ s.checks ++ [k] := fun k' hk => List.mem_append_left _ hk
    refine ⟨fun k' hk => ?_, fun l hl k' hk => hmem k' (hi.found l hl k' hk),
      fun hact => (hi.deadline hact).mono fun _ hx => hx.mono hmem rfl, hi.ended⟩
    obtain hk | hk := List.mem_append.mp hk
    · exact hi.past k' hk
    · rw [List.mem_singleton.mp hk, hnow]
      exact UInt64.le_refl _
  | fetch reached =>
    simp only [World.step] at hs
    split at hs <;> cases hs
    refine ⟨hi.past, fun l hl k hk => ?_, fun hact => (hi.deadline hact).mono fun _ hx => hx.mono (fun _ hk => hk) rfl,
      hi.ended⟩
    cases reached <;> cases hl
    exact hk
  | run => exact inv_run hi hs
  | safety => exact inv_safety hs₀ hreq hi hs
  | heartbeat alive =>
    obtain ⟨t, ht, heq⟩ := exists_of_lift hs
    subst heq
    obtain ⟨hsafety, hflag⟩ := heartbeatStep_safety ht
    exact hi.other hsafety rfl rfl rfl rfl (.inl rfl) hflag
  | shutDown =>
    obtain ⟨t, ht, heq⟩ := exists_of_lift hs
    cases ht
    subst heq
    exact hi.other rfl rfl rfl rfl rfl (.inl rfl) fun _ => rfl

theorem inv_reachable (hs₀ : makeIsSafeStream c = .ok s₀) (hreq : b.requires_safety = some true)
    (h : ((failSafe numpy c s₀ b).restrict (onTime look slack)).Reachable s) : Inv numpy c look slack s := by
  have hinit : ∀ s, (failSafe numpy c s₀ b).init s → Inv numpy c look slack s := by
    intro s hs
    obtain ⟨now, heq⟩ := hs
    subst heq
    refine ⟨fun k hk => ?_, fun l hl => ?_, fun hact => ?_, fun hended => ?_⟩
    · cases hk
    · cases hl
    · cases hact
    · cases hended
  have hstep : ∀ s l s', Inv numpy c look slack s → ((failSafe numpy c s₀ b).restrict (onTime look slack)).step s l s' → Inv numpy c look slack s' :=
    fun s l s' hi hs => inv_step hs₀ hreq hi hs.1 hs.2
  have hind : ((failSafe numpy c s₀ b).restrict (onTime look slack)).Inductive (Inv numpy c look slack) := ⟨hinit, hstep⟩
  exact hind.reachable s h

/-- The safety thread is never kept from its next step, so that it can be on time. -/
theorem safety_goes_on (hact : active s.safety = true) :
    (s.step numpy c s₀ b .safety).isSome = true ∨
      ∃ s', s.step numpy c s₀ b (.fetch true) = some s' ∧ (s'.step numpy c s₀ b .safety).isSome = true := by
  cases hat : s.safety with
  | unstarted => rw [hat] at hact; cases hact
  | ended => rw [hat] at hact; cases hact
  | look =>
    have hlooking : looking s.run .look = true := by cases s.run <;> rfl
    refine .inr ⟨{ s with found := some (.ok s.checks) }, by simp only [World.step, hat, hlooking, if_true], ?_⟩
    simp [World.step, hat, World.fetched, World.lift, ServiceRun.State.step, ServiceRun.State.safetyStep]
  | test | unsafeFound | shutDown =>
    left
    simp [World.step, hat, World.lift, ServiceRun.State.step, ServiceRun.State.safetyStep]

/-! ## The bound -/

/-- Every safety met its bounds, where its comparisons are decisive. -/
def AllMet (numpy : Numpy) (c : Safeties) (k : Check) : Prop :=
  ∀ e ∈ c.entries, ∃ i, c.checkedSafeties[i]? = some e ∧
    (Decisive numpy k.currentTime e.2 (k.latest i) → Met k.currentTime e.2 (k.latest i))

theorem allMet_of_safe {k : Check} (h : Safe numpy c k) : AllMet numpy c k := by
  intro e he
  obtain ⟨i, hi⟩ := List.mem_iff_getElem?.mp ((mem_checkedSafeties c e).mpr he)
  refine ⟨i, hi, fun hdecisive => ?_⟩
  exact (verdict_met_iff _ _ _ _).mpr hdecisive (h _ (List.mem_of_getElem? (getElem?_isSafes hi)))

/-- A service that requires safety, whose safety thread runs and which nobody told to
shut down, has just started, or a check of the last 240 s, the time of a look and three times
the slack added, set every bit. So it is told to in that time, when the checks fail or stop. -/
theorem fails_safe (hs₀ : makeIsSafeStream c = .ok s₀) (hreq : b.requires_safety = some true)
    (h : ((failSafe numpy c s₀ b).restrict (onTime look slack)).Reachable s) (hsafety : s.safety ≠ .unstarted)
    (hdown : s.shouldShutDown = false) :
    s.now.toNat ≤ s.started.toNat + safetyInterval + look + 3 * slack ∨
      ∃ k ∈ s.checks, s.now.toNat ≤ k.submitted.toNat + 4 * safetyInterval + look + 3 * slack ∧
        Safe numpy c k ∧ AllMet numpy c k := by
  have hi := inv_reachable hs₀ hreq h
  have hact : active s.safety = true := by
    unfold active
    split <;> rename_i hat
    · exact absurd hat hsafety
    · rw [hi.ended hat] at hdown; cases hdown
    · rfl
  obtain ⟨x, hx, hle⟩ := (hi.deadline hact).le
  have hlate : lateness look slack s.safety + patience look slack s.safety ≤ safetyInterval + look + 3 * slack := by
    cases s.safety <;> simp only [lateness, patience] <;> omega
  cases hx with
  | started => exact .inl (by omega)
  | checked k hk hsafe => exact .inr ⟨k, hk, by unfold safetyInterval at *; omega, hsafe, allMet_of_safe hsafe⟩

/-- A check, seen before the service opens and by its thread, which sleeps from then on. -/
def lookedTwice (k : Check) : List Step :=
  [.check k, .run, .fetch true, .run, .run, .run, .run, .run, .safety, .fetch true, .safety]

theorem exec_lookedTwice {k : Check} (hsafe : L3.isSafe true (.ok (monitor numpy c s₀ [k])) k.submitted = true) :
    (LTS.exec (World.step numpy c s₀ ⟨some true, .returns, .returns, .returns⟩)
      ⟨.new, k.submitted, [], none, k.submitted, k.submitted⟩ (lookedTwice k)).map
        (fun s => (s.safety, s.shouldShutDown, s.now, s.since)) = some (.test, false, k.submitted, k.submitted) := by
  simp [LTS.exec, lookedTwice, World.step, World.lift, World.fetched, World.isSafe, looking, ServiceRun.State.new,
    ServiceRun.State.step, ServiceRun.State.runStep, ServiceRun.State.safetyStep, ServiceRun.State.write, Except.map,
    Behaviour.IsSafe, hsafe]

/-- A minute after a humidity of 20, with one second of slack. -/
theorem fails_safe_humidity : ∃ s : World, s.safety = .test ∧ s.now = 160000000001 ∧
    (s.now.toNat ≤ s.started.toNat + safetyInterval + (lookLimit + 1000000000) + 3 * 1000000000 ∨
      ∃ k ∈ s.checks,
        s.now.toNat ≤ k.submitted.toNat + 4 * safetyInterval + (lookLimit + 1000000000) + 3 * 1000000000 ∧
          Safe numpy2 humiditySafeties k ∧ AllMet numpy2 humiditySafeties k) := by
  obtain ⟨s₀, hs₀⟩ : ∃ s₀, makeIsSafeStream humiditySafeties = .ok s₀ := ⟨_, rfl⟩
  have hbits : isSafes numpy2 humiditySafeties (humidityCheck (.fin 20)) = [true] :=
    isSafes_humidity (by norm_num) (by norm_num)
  have hsafe : L3.isSafe true
      (.ok (monitor numpy2 humiditySafeties s₀ [humidityCheck (.fin 20)])) 100000000001 = true := by
    refine (isSafe_iff numpy2 hs₀ _ _).mpr ⟨[], _, rfl, by decide, by decide, ?_⟩
    rw [hbits]
    simp
  obtain ⟨s, hexec, hs⟩ := Option.map_eq_some_iff.mp (exec_lookedTwice (k := humidityCheck (.fin 20)) hsafe)
  simp only [Prod.mk.injEq] at hs
  obtain ⟨hat, hdown, hnow, hsince⟩ := hs
  have hreach : ((failSafe numpy2 humiditySafeties s₀ ⟨some true, .returns, .returns, .returns⟩).restrict
      (onTime (lookLimit + 1000000000) 1000000000)).Reachable s := by
    refine LTS.Reachable.of_free ⟨_, rfl⟩ (fun l hl t => ?_) hexec
    simp only [lookedTwice, List.mem_cons, List.not_mem_nil, or_false] at hl
    obtain hl | hl | hl | hl | hl | hl | hl | hl | hl | hl | hl := hl <;> subst hl <;> trivial
  have htick : onTime (lookLimit + 1000000000) 1000000000 s (.tick 160000000001) := by
    refine ⟨by rw [hnow]; decide, fun _ => ?_⟩
    rw [hsince, hat]
    decide
  exact ⟨{ s with now := 160000000001 }, hat, rfl,
    fails_safe hs₀ rfl (hreach.step ⟨htick, rfl⟩) (by simp [hat]) hdown⟩

end Catkit2.L4.FailSafe
