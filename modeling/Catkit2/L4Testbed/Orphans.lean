import Catkit2.Core.Deadline
import Catkit2.L4Testbed.TestbedRun

/-!
# Services whose testbed is gone (testbed.py, TestbedProxy.cpp, Service.cpp)

The testbed runs `TestbedRun`, unless it is killed, and a service runs `ServiceRun`. The
heartbeat thread of the service looks at the testbed, sleeps for 1 s and looks again. A
look fetches the newest heartbeat of the testbed and compares it a moment later (`isAlive`).

All clocks are one, read in ns (`now`), and it is past 1970 by 30 s. The bounds hold under
one hypothesis on the runs (`onTime`): the clock does not go back, the heartbeat thread
leaves its sleep at most `slack` after the second, and does each other thing within
`slack`. The testbed may take any time for anything. Where `IsAlive` throws the process
ends, and no step is made.

* `inv_step`: what the last look that found the testbed alive was.
* `orphan_told`: without its testbed a service is told to shut down, in 1 s when the
  testbed ended and in 31 s when it was killed, or hangs.
-/
namespace Catkit2.L4.Orphans

open ServiceRun

/-- `SERVICE_LIVELINESS / 5`, in ns.
mirrors catkit_core/Service.cpp:291, Service.h:20 -/
def heartbeatInterval : Nat := 1000000000

/-- `found` are the heartbeats up to the one that was fetched, `since` the time at which the
heartbeat thread got where it is, and `zeroed` that of the last heartbeat of the testbed. -/
structure World where
  testbed : TestbedRun.State
  killed : Bool
  service : ServiceRun.State
  now : UInt64
  found : Option (List Heartbeat)
  since : UInt64
  started : UInt64
  zeroed : Option UInt64

inductive Step where
  | tick (next : UInt64)
  | testbed (l : TestbedRun.Step)
  | kill
  | fetch
  | run (safe : Bool)
  | safety (safe : Bool)
  | heartbeat
  /-- A client, or the service's own code. -/
  | shutDown

/-- What the step reads of the clock is the time. -/
def atTime (now : UInt64) : TestbedRun.Step → Bool
  | .run _ time | .heartbeats time => time = now
  | _ => true

/-- The step submits the last heartbeat. -/
def zeroing (run : TestbedRun.RunAt) (l : TestbedRun.Step) : Bool :=
  match run, l with
  | .zero, .run true _ => true
  | _, _ => false

namespace World

variable (b : Behaviour)

/-- A step of the service. -/
def lift (s : World) (l : ServiceRun.Step) : Option World :=
  (s.service.step b l).map fun t => { s with service := t }

def step (s : World) : Step → Option World
  | .tick next => some { s with now := next }
  | .testbed l =>
    if s.killed || !atTime s.now l then none
    else (s.testbed.step l).map fun t =>
      { s with testbed := t, zeroed := if zeroing s.testbed.run l then some s.now else s.zeroed }
  | .kill => some { s with killed := true }
  | .fetch =>
    match s.service.heartbeat with
    | .look => some { s with found := some s.testbed.heartbeat_stream }
    | _ => none
  | .run safe =>
    match s.service.run with
    | .spawnHeartbeat => { s with found := none, since := s.now, started := s.now }.lift b (.run safe s.now)
    | _ => s.lift b (.run safe s.now)
  | .safety safe => s.lift b (.safety safe)
  | .heartbeat =>
    match s.service.heartbeat, s.found with
    | .look, none => none
    | .look, some found =>
      match isAlive (heartbeatStream found) s.now with
      | .ok alive => { s with found := none, since := s.now }.lift b (.heartbeat alive s.now)
      | .error _ => none
    | _, _ => { s with found := none, since := s.now }.lift b (.heartbeat false s.now)
  | .shutDown => s.lift b .shutDown

end World

def orphans (b : Behaviour) : LTS World Step :=
  .ofFn (fun s => ∃ now : UInt64, liveness ≤ now.toNat ∧ s = ⟨.new, false, .new, now, none, now, now, none⟩)
    (World.step b)

/-! ## Being on time -/

def active : HeartbeatAt → Bool
  | .unstarted | .ended => false
  | _ => true

/-- How long the heartbeat thread stays where it is, at most. -/
def patience (slack : Nat) : HeartbeatAt → Nat
  | .test => heartbeatInterval + slack
  | _ => slack

/-- How late it gets there. -/
def lateness (slack : Nat) : HeartbeatAt → Nat
  | .beat => heartbeatInterval + slack
  | .look => heartbeatInterval + 2 * slack
  | .shutDown => heartbeatInterval + 3 * slack
  | _ => 0

def onTime (slack : Nat) (s : World) : Step → Prop
  | .tick next => s.now ≤ next ∧
    (active s.service.heartbeat = true → next.toNat ≤ s.since.toNat + patience slack s.service.heartbeat)
  | _ => True

/-- Until when the testbed may count as alive: for 30 s from a heartbeat, or until the
thread looks for the first time. -/
inductive AliveUntil (s : World) : Nat → Prop where
  | started : AliveUntil s s.started.toNat
  | beat (beat : Heartbeat) : beat ∈ s.testbed.heartbeat_stream → AliveUntil s (beat.timestamp.toNat + liveness)

/-- The same for a testbed that ended at `e`: a look may have begun by then. -/
def EndedBy (slack : Nat) (e : UInt64) (s : World) (x : Nat) : Prop := x = s.started.toNat ∨ x = e.toNat + slack

structure Inv (slack : Nat) (s : World) : Prop where
  epoch : liveness ≤ s.now.toNat
  since : s.since ≤ s.now
  past : ∀ beat ∈ s.testbed.heartbeat_stream, beat.timestamp ≤ s.now
  pending : ∀ t, s.testbed.heartbeats = .submit t → t ≤ s.now
  joined : TestbedRun.Joined s.testbed s.testbed.run
  zeroed : ∀ e, s.zeroed = some e → TestbedRun.Zeroed s.testbed
  unended : s.zeroed = none → s.testbed.run ≠ .tearDown ∧ s.testbed.run ≠ .ended
  found : ∀ l, s.found = some l → (∀ beat ∈ l, beat ∈ s.testbed.heartbeat_stream) ∧
    ∀ e, s.zeroed = some e → l.getLast? = s.testbed.heartbeat_stream.getLast? ∨ s.since ≤ e
  alive : active s.service.heartbeat = true → MeetsDeadline (AliveUntil s) (lateness slack s.service.heartbeat)
    (patience slack s.service.heartbeat) s.since.toNat s.now.toNat
  gone : ∀ e, s.zeroed = some e → active s.service.heartbeat = true →
    MeetsDeadline (EndedBy slack e s) (lateness slack s.service.heartbeat) (patience slack s.service.heartbeat)
      s.since.toNat s.now.toNat
  ended : s.service.heartbeat = .ended → s.service.shouldShutDown = true

variable {b : Behaviour} {slack : Nat} {s s' : World}

theorem AliveUntil.same {x : Nat} (h : AliveUntil s x) (hstarted : s'.started = s.started)
    (hstream : s'.testbed.heartbeat_stream = s.testbed.heartbeat_stream) : AliveUntil s' x := by
  cases h with
  | started => exact hstarted ▸ .started
  | beat beat hbeat => exact .beat beat (hstream ▸ hbeat)

/-! ## Steps of the testbed -/

/-- A testbed that submitted its last heartbeat submits no other. -/
theorem stream_of_zeroed {s s' : TestbedRun.State} {l : TestbedRun.Step} (h : TestbedRun.Zeroed s)
    (hs : s.step l = some s') : s'.heartbeat_stream = s.heartbeat_stream := by
  cases l with
  | run ok time =>
    simp only [TestbedRun.State.step, TestbedRun.State.runStep] at hs
    obtain hat | hat | hat := h.run <;> rw [hat] at hs <;> cases hs
    rfl
  | heartbeats time => exact absurd h.gone (TestbedRun.heartbeatsStep_gone hs)
  | monitorEnds =>
    simp only [TestbedRun.State.step] at hs
    split at hs <;> cases hs
    rfl
  | onShutDown => cases hs; rfl

/-- What a step adds to the stream: the time that was read before, or the zero. -/
theorem testbedStep_stream {s s' : TestbedRun.State} {l : TestbedRun.Step} (hs : s.step l = some s') :
    s'.heartbeat_stream = s.heartbeat_stream ∨ ∃ beat, s'.heartbeat_stream = s.heartbeat_stream ++ [beat] ∧
      (beat.timestamp = 0 ∨ s.heartbeats = .submit beat.timestamp) := by
  cases l with
  | run ok time =>
    simp only [TestbedRun.State.step, TestbedRun.State.runStep] at hs
    split at hs
    case h_12 =>
      cases ok <;> cases hs
      · exact .inl rfl
      · exact .inr ⟨_, rfl, .inl rfl⟩
    all_goals (try split at hs) <;> (try split at hs) <;> cases hs
    all_goals exact .inl rfl
  | heartbeats time =>
    simp only [TestbedRun.State.step, TestbedRun.State.heartbeatsStep] at hs
    split at hs <;> rename_i hat <;> cases hs
    · exact .inl rfl
    · exact .inl rfl
    · exact .inr ⟨_, rfl, .inr hat⟩
  | monitorEnds =>
    simp only [TestbedRun.State.step] at hs
    split at hs <;> cases hs
    exact .inl rfl
  | onShutDown => cases hs; exact .inl rfl

/-- The time that is about to be submitted was read just now, or was there before. -/
theorem testbedStep_pending {s s' : TestbedRun.State} {l : TestbedRun.Step} {now t : UInt64}
    (hs : s.step l = some s') (hl : atTime now l = true) (ht : s'.heartbeats = .submit t) :
    s.heartbeats = .submit t ∨ t = now := by
  cases l with
  | run ok time =>
    simp only [TestbedRun.State.step, TestbedRun.State.runStep] at hs
    split at hs <;> (try split at hs) <;> (try split at hs) <;> cases hs
    all_goals first
      | exact .inl ht
      | cases ht
  | heartbeats time =>
    simp only [TestbedRun.State.step, TestbedRun.State.heartbeatsStep] at hs
    split at hs <;> cases hs
    · split at ht <;> cases ht
    · cases ht
      exact .inr (by simpa [atTime] using hl)
    · cases ht
  | monitorEnds =>
    simp only [TestbedRun.State.step] at hs
    split at hs <;> cases hs
    exact .inl ht
  | onShutDown => cases hs; exact .inl ht

theorem tearDown_of_zeroing {s s' : TestbedRun.State} {l : TestbedRun.Step} (hl : zeroing s.run l = true)
    (hs : s.step l = some s') : s'.run = .tearDown := by
  unfold zeroing at hl
  split at hl
  · rename_i hat
    simp only [TestbedRun.State.step, TestbedRun.State.runStep, hat] at hs
    cases hs
    rfl
  · cases hl

/-- `run` comes to its end only by way of the last heartbeat. -/
theorem unended_step {s s' : TestbedRun.State} {l : TestbedRun.Step} (h : s.run ≠ .tearDown ∧ s.run ≠ .ended)
    (hl : zeroing s.run l = false) (hs : s.step l = some s') : s'.run ≠ .tearDown ∧ s'.run ≠ .ended := by
  cases l with
  | run ok time =>
    simp only [TestbedRun.State.step, TestbedRun.State.runStep] at hs
    split at hs <;> rename_i hat
    case h_13 => exact absurd hat h.1
    case h_12 =>
      cases ok
      · cases hs
        exact ⟨fun h => (by cases h), fun h => (by cases h)⟩
      · rw [hat] at hl
        cases hl
    case h_6 =>
      cases hs
      unfold TestbedRun.State.goOn
      cases ok <;> cases s.shutdown_requested <;> exact ⟨fun h => (by cases h), fun h => (by cases h)⟩
    all_goals cases ok <;> (try split at hs) <;> (try split at hs) <;> cases hs
    all_goals exact ⟨fun h => (by cases h), fun h => (by cases h)⟩
  | heartbeats time =>
    have hrun : s'.run = s.run := by
      simp only [TestbedRun.State.step, TestbedRun.State.heartbeatsStep] at hs
      split at hs <;> cases hs <;> rfl
    rw [hrun]
    exact h
  | monitorEnds =>
    simp only [TestbedRun.State.step] at hs
    split at hs <;> cases hs
    exact h
  | onShutDown => cases hs; exact h

theorem isAlive_nil (t : UInt64) (alive : Bool) : isAlive (heartbeatStream []) t ≠ .ok alive := by
  intro h
  obtain ⟨beat, hread, -⟩ := isAlive_ok_iff.mp h
  cases hread

theorem inv_testbed {l : TestbedRun.Step} (hi : Inv slack s) (hs : s.step b (.testbed l) = some s') :
    Inv slack s' := by
  simp only [World.step] at hs
  split at hs
  · cases hs
  rename_i hok
  simp only [Bool.or_eq_true, Bool.not_eq_true', not_or, Bool.not_eq_true, Bool.not_eq_false] at hok
  obtain ⟨t, ht, heq⟩ := Option.map_eq_some_iff.mp hs
  subst heq
  have hjoined : TestbedRun.Joined t t.run := TestbedRun.joined_step hi.joined ht
  have hpending : ∀ time, t.heartbeats = .submit time → time ≤ s.now := by
    intro time htime
    obtain hold | hnew := testbedStep_pending ht hok.2 htime
    · exact hi.pending time hold
    · exact hnew ▸ UInt64.le_refl _
  -- the stream only grows, by times that have passed
  have hgrows : ∀ beat ∈ s.testbed.heartbeat_stream, beat ∈ t.heartbeat_stream := by
    intro beat hbeat
    obtain hsame | ⟨last, hmore, -⟩ := testbedStep_stream ht
    · exact hsame ▸ hbeat
    · exact hmore ▸ List.mem_append_left _ hbeat
  have hpast : ∀ beat ∈ t.heartbeat_stream, beat.timestamp ≤ s.now := by
    intro beat hbeat
    obtain hsame | ⟨last, hmore, hlast⟩ := testbedStep_stream ht
    · exact hi.past beat (hsame ▸ hbeat)
    · rw [hmore] at hbeat
      obtain hbeat | hbeat := List.mem_append.mp hbeat
      · exact hi.past beat hbeat
      · rw [List.mem_singleton.mp hbeat]
        obtain hzero | hsubmit := hlast
        · rw [hzero]
          exact UInt64.zero_le
        · exact hi.pending _ hsubmit
  have halive : active s.service.heartbeat = true →
      MeetsDeadline (AliveUntil { s with testbed := t, zeroed := if zeroing s.testbed.run l then some s.now else s.zeroed })
        (lateness slack s.service.heartbeat) (patience slack s.service.heartbeat) s.since.toNat s.now.toNat := by
    refine fun hact => (hi.alive hact).mono fun x hx => ?_
    cases hx with
    | started => exact .started
    | beat beat hbeat => exact .beat beat (hgrows beat hbeat)
  by_cases hzeroing : zeroing s.testbed.run l = true
  · simp only [hzeroing, if_true] at halive ⊢
    have hzeroed : TestbedRun.Zeroed t := by
      have hdown : t.run = .tearDown := tearDown_of_zeroing hzeroing ht
      rw [hdown] at hjoined
      exact hjoined
    refine ⟨hi.epoch, hi.since, hpast, hpending, hjoined, fun e _ => hzeroed, fun h => (by cases h), fun found hfound => ?_, halive,
      fun e he hact => ?_, hi.ended⟩
    · refine ⟨fun beat hbeat => hgrows beat ((hi.found found hfound).1 beat hbeat), fun e he => .inr ?_⟩
      cases he
      exact hi.since
    · cases he
      have hsince := UInt64.le_iff_toNat_le.mp hi.since
      exact ⟨⟨_, .inr rfl, by dsimp only; omega⟩, (hi.alive hact).now⟩
  · simp only [hzeroing] at halive ⊢
    refine ⟨hi.epoch, hi.since, hpast, hpending, hjoined, fun e he => (hi.zeroed e he).step ht,
      fun hnone => unended_step (hi.unended hnone) (by simpa using hzeroing) ht, fun found hfound => ?_,
      halive, fun e he hact => (hi.gone e he hact).mono fun x hx => hx, hi.ended⟩
    refine ⟨fun beat hbeat => hgrows beat ((hi.found found hfound).1 beat hbeat), fun e he => ?_⟩
    rw [stream_of_zeroed (hi.zeroed e he) ht]
    exact (hi.found found hfound).2 e he

/-! ## Steps of the service -/

theorem exists_of_lift {l : ServiceRun.Step} (hs : s.lift b l = some s') :
    ∃ t, s.service.step b l = some t ∧ s' = { s with service := t } := by
  simp only [World.lift, Option.map_eq_some_iff] at hs
  obtain ⟨t, ht, heq⟩ := hs
  exact ⟨t, ht, heq.symm⟩

/-- A step of another thread of the service: the heartbeat thread is where it was. -/
theorem Inv.other (hi : Inv slack s) {t : ServiceRun.State} (hat : t.heartbeat = s.service.heartbeat)
    (hflag : s.service.shouldShutDown = true → t.shouldShutDown = true) : Inv slack { s with service := t } := by
  refine ⟨hi.epoch, hi.since, hi.past, hi.pending, hi.joined, hi.zeroed, hi.unended, hi.found, ?_, ?_, ?_⟩ <;> dsimp only <;>
    rw [hat]
  · exact fun hact => (hi.alive hact).mono fun x hx => hx.same rfl rfl
  · exact fun e he hact => (hi.gone e he hact).mono fun x hx => hx
  · exact fun hended => hflag (hi.ended hended)

/-- The heartbeat thread gets to the next place now. -/
theorem Inv.goes (hi : Inv slack s) {t : ServiceRun.State}
    (halive : active t.heartbeat = true →
      MeetsDeadline (AliveUntil s) (lateness slack t.heartbeat) (patience slack t.heartbeat) s.now.toNat s.now.toNat)
    (hgone : ∀ e, s.zeroed = some e → active t.heartbeat = true →
      MeetsDeadline (EndedBy slack e s) (lateness slack t.heartbeat) (patience slack t.heartbeat) s.now.toNat s.now.toNat)
    (hended : t.heartbeat = .ended → t.shouldShutDown = true) :
    Inv slack { s with found := none, since := s.now, service := t } := by
  exact ⟨hi.epoch, UInt64.le_refl _, hi.past, hi.pending, hi.joined, hi.zeroed, hi.unended, fun _ h => (by cases h),
    fun hact => (halive hact).mono fun x hx => hx.same rfl rfl,
    fun e he hact => (hgone e he hact).mono fun x hx => hx, hended⟩

theorem inv_run {safe : Bool} (hi : Inv slack s) (hs : s.step b (.run safe) = some s') : Inv slack s' := by
  simp only [World.step] at hs
  split at hs
  · rename_i hrun
    obtain ⟨t, ht, heq⟩ := exists_of_lift hs
    subst heq
    simp only [ServiceRun.State.step, ServiceRun.State.runStep, hrun] at ht
    cases ht
    refine ⟨hi.epoch, UInt64.le_refl _, hi.past, hi.pending, hi.joined, hi.zeroed, hi.unended, fun _ h => (by cases h),
      fun _ => .renew .started (Nat.le_add_right _ _), fun e he _ => .renew (.inl rfl) (Nat.le_add_right _ _),
      fun h => (by cases h)⟩
  · rename_i hrun
    obtain ⟨t, ht, heq⟩ := exists_of_lift hs
    subst heq
    exact hi.other (runStep_heartbeat ht hrun) (runStep_shouldShutDown ht)

/-- What a look that finds the testbed alive found. -/
theorem alive_beat {found : List Heartbeat} (hi : Inv slack s) (hfound : s.found = some found)
    (halive : isAlive (heartbeatStream found) s.now = .ok true) :
    (∃ x, AliveUntil s x ∧ s.now.toNat ≤ x) ∧ ∀ e, s.zeroed = some e → s.since ≤ e := by
  obtain ⟨hmem, hlast⟩ := hi.found found hfound
  obtain hnil | ⟨earlier, beat, hconcat⟩ := List.eq_nil_or_concat found
  · rw [hnil] at halive
    exact absurd halive (isAlive_nil _ _)
  rw [List.concat_eq_append] at hconcat
  rw [hconcat, isAlive_heartbeats] at halive
  have hrecent : isRecent beat.timestamp s.now = true := by simpa using halive
  have hbeat : beat ∈ s.testbed.heartbeat_stream := hmem beat (by rw [hconcat]; simp)
  have hpast := hi.past beat hbeat
  rw [isRecent_iff, age_of_le hpast] at hrecent
  have hepoch := hi.epoch
  refine ⟨⟨_, .beat beat hbeat, by omega⟩, fun e he => ?_⟩
  obtain hsame | hsince := hlast e he
  · -- the newest heartbeat is zero, and so too old
    obtain ⟨-, -, -, last, hget, hzero⟩ := hi.zeroed e he
    rw [hconcat, hget, List.getLast?_concat, Option.some.injEq] at hsame
    rw [hsame, hzero] at hrecent
    have h0 : (0 : UInt64).toNat = 0 := rfl
    omega
  · exact hsince

/-- The thread left in time where it was, and so gets to the next place not much later. -/
theorem Inv.carry (hi : Inv slack s) {t : ServiceRun.State} (hact : active s.service.heartbeat = true)
    (hle : lateness slack s.service.heartbeat + patience slack s.service.heartbeat ≤ lateness slack t.heartbeat)
    (hended : t.heartbeat = .ended → t.shouldShutDown = true) :
    Inv slack { s with found := none, since := s.now, service := t } :=
  hi.goes (fun _ => (hi.alive hact).goes hle) (fun e he _ => (hi.gone e he hact).goes hle) hended

/-- The look is the one step after which the testbed counts as alive again. -/
theorem inv_look (hi : Inv slack s) (hlook : s.service.heartbeat = .look) (hs : s.step b .heartbeat = some s') :
    Inv slack s' := by
  have hact : active s.service.heartbeat = true := by rw [hlook]; rfl
  cases hfound : s.found with
  | none =>
    simp only [World.step, hlook, hfound] at hs
    cases hs
  | some found =>
    simp only [World.step, hlook, hfound] at hs
    split at hs
    · rename_i alive halive
      obtain ⟨t, ht, heq⟩ := exists_of_lift hs
      simp only [ServiceRun.State.step, ServiceRun.State.heartbeatStep, hlook, Option.some.injEq] at ht
      subst heq
      subst ht
      cases alive with
      | true =>
        obtain ⟨⟨x, hx, hle⟩, hsince⟩ := alive_beat hi hfound halive
        refine hi.goes (fun _ => .renew hx hle) (fun e he _ => .renew (.inr rfl) ?_) (fun h => by cases h)
        have hbefore := UInt64.le_iff_toNat_le.mp (hsince e he)
        have hnow := (hi.alive hact).now
        simp only [hlook, patience] at hnow
        dsimp only
        omega
      | false =>
        refine hi.carry hact ?_ (fun h => by cases h)
        simp only [hlook, lateness, patience, Bool.false_eq_true, if_false]
        omega
    · cases hs

theorem inv_heartbeat (hi : Inv slack s) (hs : s.step b .heartbeat = some s') : Inv slack s' := by
  by_cases hlook : s.service.heartbeat = .look
  · exact inv_look hi hlook hs
  have hlift : { s with found := none, since := s.now }.lift b (.heartbeat false s.now) = some s' := by
    simp only [World.step] at hs
    split at hs
    · exact absurd ‹_› hlook
    · exact absurd ‹_› hlook
    · exact hs
  obtain ⟨t, ht, heq⟩ := exists_of_lift hlift
  subst heq
  simp only [ServiceRun.State.step, ServiceRun.State.heartbeatStep] at ht
  split at ht <;> rename_i hat
  · have hact : active s.service.heartbeat = true := by rw [hat]; rfl
    cases ht
    by_cases hdown : s.service.shouldShutDown = true
    · exact hi.goes (fun h => by simp [hdown, active] at h) (fun _ _ h => by simp [hdown, active] at h) (fun _ => hdown)
    · refine hi.carry hact ?_ (fun h => by simp [hdown] at h)
      simp [hdown, hat, lateness, patience]
  · cases ht
    refine hi.carry (by rw [hat]; rfl) ?_ (fun h => by cases h)
    simp only [hat, lateness, patience]
    omega
  · exact absurd hat hlook
  · cases ht
    exact hi.goes (fun h => by cases h) (fun _ _ h => by cases h) (fun _ => rfl)
  · cases ht
  · cases ht

theorem inv_step {l : Step} (hi : Inv slack s) (hon : onTime slack s l) (hs : s.step b l = some s') :
    Inv slack s' := by
  cases l with
  | tick next =>
    cases hs
    have hle := UInt64.le_iff_toNat_le.mp hon.1
    exact ⟨Nat.le_trans hi.epoch hle, UInt64.le_trans hi.since hon.1,
      fun beat hbeat => UInt64.le_trans (hi.past beat hbeat) hon.1, fun t ht => UInt64.le_trans (hi.pending t ht) hon.1,
      hi.joined, hi.zeroed, hi.unended, hi.found, fun hact => ((hi.alive hact).tick (hon.2 hact)).mono fun x hx => hx.same rfl rfl,
      fun e he hact => ((hi.gone e he hact).tick (hon.2 hact)).mono fun x hx => hx, hi.ended⟩
  | testbed l => exact inv_testbed hi hs
  | kill =>
    cases hs
    exact ⟨hi.epoch, hi.since, hi.past, hi.pending, hi.joined, hi.zeroed, hi.unended, hi.found,
      fun hact => (hi.alive hact).mono fun x hx => hx.same rfl rfl,
      fun e he hact => (hi.gone e he hact).mono fun x hx => hx, hi.ended⟩
  | fetch =>
    simp only [World.step] at hs
    split at hs <;> cases hs
    refine ⟨hi.epoch, hi.since, hi.past, hi.pending, hi.joined, hi.zeroed, hi.unended, fun found hfound => ?_,
      fun hact => (hi.alive hact).mono fun x hx => hx.same rfl rfl,
      fun e he hact => (hi.gone e he hact).mono fun x hx => hx, hi.ended⟩
    cases hfound
    exact ⟨fun beat hbeat => hbeat, fun e he => .inl rfl⟩
  | run safe => exact inv_run hi hs
  | safety safe =>
    obtain ⟨t, ht, heq⟩ := exists_of_lift hs
    subst heq
    obtain ⟨hat, hflag⟩ := safetyStep_heartbeat ht
    exact hi.other hat hflag
  | heartbeat => exact inv_heartbeat hi hs
  | shutDown =>
    obtain ⟨t, ht, heq⟩ := exists_of_lift hs
    subst heq
    cases ht
    exact hi.other rfl fun _ => rfl

theorem inv_reachable (h : ((orphans b).restrict (onTime slack)).Reachable s) : Inv slack s := by
  have hinit : ∀ s, (orphans b).init s → Inv slack s := by
    intro s hs
    obtain ⟨now, hepoch, heq⟩ := hs
    subst heq
    exact ⟨hepoch, UInt64.le_refl _, fun _ h => (by cases h), fun _ h => (by cases h), trivial,
      fun _ h => (by cases h), fun _ => ⟨fun h => (by cases h), fun h => (by cases h)⟩, fun _ h => (by cases h),
      fun h => (by cases h), fun _ h => (by cases h), fun h => (by cases h)⟩
  have hstep : ∀ s l s', Inv slack s → ((orphans b).restrict (onTime slack)).step s l s' → Inv slack s' :=
    fun s l s' hi hs => inv_step hi hs.1 hs.2
  have hind : ((orphans b).restrict (onTime slack)).Inductive (Inv slack) := ⟨hinit, hstep⟩
  exact hind.reachable s h

/-! ## The bounds -/

/-- A service whose heartbeat thread runs and which nobody told to shut down has just
started, or its testbed submitted a heartbeat less than 31 s ago, four times the slack added;
and where the testbed has submitted its last heartbeat, that was at most 1 s ago, five times
the slack added. A testbed whose `run` has ended has submitted it. -/
theorem orphan_told (h : ((orphans b).restrict (onTime slack)).Reachable s)
    (hheartbeat : s.service.heartbeat ≠ .unstarted) (hdown : s.service.shouldShutDown = false) :
    (s.now.toNat ≤ s.started.toNat + heartbeatInterval + 4 * slack ∨ ∃ beat ∈ s.testbed.heartbeat_stream,
      s.now.toNat ≤ beat.timestamp.toNat + liveness + heartbeatInterval + 4 * slack) ∧
    (∀ e, s.zeroed = some e → s.now.toNat ≤ s.started.toNat + heartbeatInterval + 4 * slack ∨
      s.now.toNat ≤ e.toNat + heartbeatInterval + 5 * slack) ∧
    (s.testbed.run = .ended → ∃ e, s.zeroed = some e) := by
  have hi := inv_reachable h
  have hact : active s.service.heartbeat = true := by
    unfold active
    split <;> rename_i hat
    · exact absurd hat hheartbeat
    · rw [hi.ended hat] at hdown; cases hdown
    · rfl
  have hlate : lateness slack s.service.heartbeat + patience slack s.service.heartbeat ≤
      heartbeatInterval + 4 * slack := by
    cases s.service.heartbeat <;> simp only [lateness, patience] <;> omega
  refine ⟨?_, fun e he => ?_, fun hended => ?_⟩
  · obtain ⟨x, hx, hle⟩ := (hi.alive hact).le
    cases hx with
    | started => exact .inl (by omega)
    | beat beat hbeat => exact .inr ⟨beat, hbeat, by omega⟩
  · obtain ⟨x, hx | hx, hle⟩ := (hi.gone e he hact).le
    · exact .inl (by omega)
    · exact .inr (by omega)
  · cases hzeroed : s.zeroed with
    | none => exact absurd hended (hi.unended hzeroed).2
    | some e => exact ⟨e, rfl⟩

/-- The testbed submits one heartbeat and is killed; the service looks at it and sleeps. -/
def killedTestbed (now : UInt64) : List Step :=
  [.testbed (.run true now), .testbed (.run true now), .testbed (.heartbeats now), .testbed (.heartbeats now),
    .testbed (.heartbeats now), .kill] ++ List.replicate 7 (.run true) ++ [.heartbeat, .heartbeat, .fetch, .heartbeat]

theorem exec_killedTestbed {now : UInt64} (hnow : isAlive (heartbeatStream [⟨now, now⟩]) now = .ok true) :
    (LTS.exec (World.step ⟨some false, .returns, .returns, .returns⟩)
      ⟨.new, false, .new, now, none, now, now, none⟩ (killedTestbed now)).map
        (fun s => (s.service.heartbeat, s.service.shouldShutDown, s.now, s.since)) = some (.test, false, now, now) := by
  simp [LTS.exec, killedTestbed, World.step, World.lift, ServiceRun.State.new, ServiceRun.State.step,
    ServiceRun.State.runStep, ServiceRun.State.heartbeatStep, ServiceRun.State.write, Behaviour.IsSafe,
    TestbedRun.State.new, TestbedRun.State.step, TestbedRun.State.runStep, TestbedRun.State.heartbeatsStep,
    TestbedRun.State.goOn, atTime, zeroing, List.replicate, hnow]

/-- A second after the look, with 0.1 s of slack. -/
theorem orphan_told_killed : ∃ s : World, s.service.heartbeat = .test ∧ s.now = 101000000000 ∧
    (s.now.toNat ≤ s.started.toNat + heartbeatInterval + 4 * 100000000 ∨ ∃ beat ∈ s.testbed.heartbeat_stream,
      s.now.toNat ≤ beat.timestamp.toNat + liveness + heartbeatInterval + 4 * 100000000) := by
  have hrecent : isRecent 100000000000 100000000000 = true := (isRecent_iff _ _).mpr (by decide)
  have halive : isAlive (heartbeatStream [⟨100000000000, 100000000000⟩]) 100000000000 = .ok true :=
    (isAlive_heartbeats [] ⟨100000000000, 100000000000⟩ 100000000000).trans (congrArg _ hrecent)
  obtain ⟨s, hexec, hs⟩ := Option.map_eq_some_iff.mp (exec_killedTestbed halive)
  simp only [Prod.mk.injEq] at hs
  obtain ⟨hat, hdown, hnow, hsince⟩ := hs
  have hreach : ((orphans ⟨some false, .returns, .returns, .returns⟩).restrict (onTime 100000000)).Reachable s := by
    refine LTS.Reachable.of_free ⟨100000000000, by decide, rfl⟩ (fun l hl t => ?_) hexec
    cases l with
    | tick next => simp [killedTestbed] at hl
    | testbed _ | kill | fetch | run _ | safety _ | heartbeat | shutDown => trivial
  have htick : onTime 100000000 s (.tick 101000000000) := by
    refine ⟨by rw [hnow]; decide, fun _ => ?_⟩
    rw [hsince, hat]
    decide
  exact ⟨{ s with now := 101000000000 }, hat, rfl,
    (orphan_told (hreach.step ⟨htick, rfl⟩) (by simp [hat]) hdown).1⟩

end Catkit2.L4.Orphans
