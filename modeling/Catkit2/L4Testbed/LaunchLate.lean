import Catkit2.L4Testbed.Launch

/-!
# Launching while shutting down (testbed.py Testbed.start_service, Testbed.run)

`start_service` tests `shutdown_requested` once, when it is called. The flag is
set by a request, or by the main thread in its `finally`, whatever the other
thread is at; the main thread goes on with `shut_down_all_services`.

* `launched_in_time`: no process is launched once `shutdown_requested` is set,
  where it is set while no start is on its way to a launch.
* `launched_too_late`: the flag is not looked at again, and the service that
  was dropped from the working set is launched.
-/
namespace Catkit2.L4

/-! ## No launch while shutting down -/

/-- The flag was tested, the process is yet to be created. -/
def StartPc.passed : StartPc → Bool
  | .testKnown | .testState | .create => true
  | _ => false

/-- The main thread is past the `set` in its `finally`. -/
def MainPc.flagged : MainPc → Bool
  | .requested | .shutDown | .ended => true
  | _ => false

namespace Launching

/-- No start is between its test of `shutdown_requested` and its launch. -/
def Quiet (s : Launching) : Prop := ∀ th c, s.call th = some c → c.pc.passed = false

/-- The flag is set, by a request or in the `finally` of `run`, only while no
start is on its way to a launch. -/
def InTime (s : Launching) : LaunchStep → Prop
  | .shutDown => s.Quiet
  | .main _ => s.main = .leaving → s.Quiet
  | _ => True

/-- Once the flag is set no start is on its way, and no process is launched. -/
structure Early (s : Launching) : Prop where
  quiet : s.shutdown_requested = true → s.Quiet
  main : s.main.flagged = true → s.shutdown_requested = true
  launched : ∀ p ∈ s.launched, p.late = false ∧ p.dropped = false

variable {t : Testbed} {s s' : Launching}

theorem Quiet.goTo (h : s.Quiet) {th : Thread} {call : Option Call}
    (hnew : ∀ c, call = some c → c.pc.passed = false) : (s.goTo th call).Quiet := by
  intro th' c hc
  rcases eq_or_other th th' with rfl | rfl
  · rw [call_goTo_self] at hc; exact hnew c hc
  · rw [call_goTo_other] at hc; exact h _ c hc

/-- Steps that leave the calls, the flag and the main thread alone, and keep
the times of the launches. -/
theorem Early.congr (h : Early s) (hcall : s'.call = s.call)
    (hflag : s'.shutdown_requested = s.shutdown_requested) (hmain : s'.main = s.main)
    (hl : ∀ p ∈ s'.launched, p.late = false ∧ p.dropped = false) : Early s' := by
  refine ⟨fun hf => ?_, fun hm => ?_, hl⟩
  · intro th c hc
    rw [hflag] at hf
    rw [hcall] at hc
    exact h.quiet hf th c hc
  · rw [hmain] at hm; rw [hflag]; exact h.main hm

theorem Early.goTo (h : Early s) {th : Thread} {call : Option Call}
    (hnew : s.shutdown_requested = true → ∀ c, call = some c → c.pc.passed = false) :
    Early (s.goTo th call) :=
  ⟨fun hf => (h.quiet hf).goTo (hnew hf), h.main, h.launched⟩

theorem Early.enters (h : Early s) (th : Thread) (ids : List ServiceId) : Early (s.goTo th (enter ids)) :=
  h.goTo fun _ c hc => by rw [enter_pc hc]; rfl

/-- A process that goes on was launched when it was. -/
theorem Early.acts (h : Early s) {n : Nat} {p q : Launched} (ha : Acts s s' n p q) : Early s' := by
  obtain ⟨hcall, hmain, hflag⟩ := ha.threads
  refine h.congr hcall hflag hmain fun p' hp' => ?_
  rw [ha.launched] at hp'
  rcases List.mem_or_eq_of_mem_set hp' with hp' | rfl
  · exact h.launched p' hp'
  · rw [ha.same.2.1, ha.same.2.2]
    exact h.launched p (List.mem_of_getElem? ha.at_place)

/-- On its way to a launch, a start finds the flag clear. -/
theorem Early.clear (h : Early s) {th : Thread} {c : Call} (hc : s.call th = some c)
    (hpc : c.pc.passed = true) : s.shutdown_requested = false := by
  by_contra hf
  have := h.quiet (by simpa using hf) th c hc
  rw [hpc] at this
  cases this

theorem Early.launch (h : Early s) (hf : s.shutdown_requested = false) (id : ServiceId) (pid : Nat) :
    Early (s.launch id pid) := by
  refine h.congr rfl rfl rfl fun p hp => ?_
  rcases List.mem_append.mp hp with hp | hp
  · exact h.launched p hp
  · rw [List.mem_singleton] at hp
    subst hp
    refine ⟨hf, ?_⟩
    unfold droppedBy
    split
    · rename_i hm
      have := h.main (by rw [hm]; rfl)
      rw [hf] at this
      cases this
    · rfl

/-- **One step of a start.** -/
theorem early_callStep (h : Early s) {host : Host} {th : Thread} {c : Call} (hc : s.call th = some c) :
    Early (callStep t host s th c) := by
  have hleave : Early (s.goTo th none) := h.enters th []
  cases hpc : c.pc with
  | testRequested =>
    simp only [callStep, hpc]
    split
    · exact hleave
    · rename_i hf
      exact h.goTo fun hf' => absurd hf' hf
  | testKnown =>
    have hf := h.clear hc (by rw [hpc]; rfl)
    simp only [callStep, hpc]
    split
    · exact hleave
    · exact h.goTo fun hf' => by rw [hf] at hf'; cases hf'
  | testState =>
    have hf := h.clear hc (by rw [hpc]; rfl)
    simp only [callStep, hpc]
    split
    · exact h.goTo fun hf' => by rw [hf] at hf'; cases hf'
    · exact h.enters th _
  | create =>
    have hf := h.clear hc (by rw [hpc]; rfl)
    simp only [callStep, hpc]
    split
    · exact hleave
    · split
      · exact hleave
      · refine (h.launch hf c.id _).goTo fun _ c' hc' => ?_
        cases hc'; rfl
  | writeState n =>
    simp only [callStep, hpc]
    have hw : Early (s.write c.id .INITIALIZING) := h.congr rfl rfl rfl h.launched
    refine hw.goTo fun _ c' hc' => ?_
    cases hc'; rfl
  | writeProcessId n =>
    simp only [callStep, hpc]
    have hr : ∀ pid, Early (s.record c.id pid) := fun pid => h.congr rfl rfl rfl h.launched
    refine (hr _).goTo fun _ c' hc' => ?_
    cases hc'; rfl
  | tune =>
    simp only [callStep, hpc]
    split
    · exact hleave
    · exact h.enters th _

/-- **One step of `run`.** Its `finally` sets the flag. -/
theorem early_mainStep (h : Early s) {o : Outcome} (hg : s.main = .leaving → s.Quiet)
    (hst : mainStep t s o = some s') : Early s' := by
  cases hm : s.main with
  | startup todo =>
    simp only [mainStep, hm] at hst
    cases hc : s.call .main with
    | some c => rw [hc] at hst; cases hst
    | none =>
      rw [hc] at hst
      cases todo with
      | nil =>
        cases hst
        refine ⟨h.quiet, fun hf => ?_, h.launched⟩
        cases hf
      | cons id todo =>
        cases hst
        have hs : Early { s with main := .startup todo } :=
          ⟨h.quiet, fun hf => (by cases hf), h.launched⟩
        exact hs.enters .main [id]
  | waiting =>
    simp only [mainStep, hm] at hst
    cases hst
    split
    · refine ⟨h.quiet, fun hf => ?_, h.launched⟩
      cases hf
    · exact h
  | leaving =>
    simp only [mainStep, hm] at hst
    cases hst
    exact ⟨fun _ => hg hm, fun _ => rfl, h.launched⟩
  | requested =>
    simp only [mainStep, hm] at hst
    cases hst
    exact ⟨h.quiet, fun _ => h.main (by rw [hm]; rfl), h.launched⟩
  | shutDown =>
    simp only [mainStep, hm] at hst
    obtain ⟨d, -, rfl⟩ := Option.map_eq_some_iff.mp hst
    exact h.congr rfl rfl hm.symm h.launched
  | ended => simp only [mainStep, hm] at hst; cases hst

theorem early_interrupted (h : Early s) (hst : s.interrupted = some s') : Early s' := by
  have hs : Early { s with main := .leaving } := ⟨h.quiet, fun hf => (by cases hf), h.launched⟩
  have hleaving := hs.enters .main []
  cases hm : s.main with
  | startup todo => simp only [interrupted, hm] at hst; cases hst; exact hleaving
  | waiting => simp only [interrupted, hm] at hst; cases hst; exact hleaving
  | leaving => simp only [interrupted, hm] at hst; cases hst; exact hleaving
  | requested =>
    simp only [interrupted, hm] at hst
    cases hst
    exact ⟨h.quiet, fun _ => h.main (by rw [hm]; rfl), h.launched⟩
  | shutDown =>
    simp only [interrupted, hm] at hst
    obtain ⟨pc, -, rfl⟩ := Option.map_eq_some_iff.mp hst
    exact h.congr rfl rfl hm.symm h.launched
  | ended => simp only [interrupted, hm] at hst; cases hst

theorem early_inductive (t : Testbed) : ((launching t).restrict InTime).Inductive Early := by
  refine ⟨fun s h => ?_, fun s l s' h hst => ?_⟩
  · obtain ⟨-, hf, hl, -, todo, hm⟩ := h
    refine ⟨fun hf' => ?_, fun hm' => ?_, fun p hp => ?_⟩
    · rw [hf] at hf'; cases hf'
    · rw [hm] at hm'; cases hm'
    · rw [hl] at hp; cases hp
  · obtain ⟨hg, hst⟩ := hst
    simp only [launching, LTS.ofFn] at hst
    cases l with
    | call th host =>
      simp only [step, Option.map_eq_some_iff] at hst
      obtain ⟨c, hc, rfl⟩ := hst
      exact early_callStep h hc
    | overflow th =>
      simp only [step] at hst
      split at hst
      · split at hst
        · cases hst; exact h.enters th []
        · cases hst
      · cases hst
    | main o => exact early_mainStep h hg hst
    | keyboardInterrupt => exact early_interrupted h hst
    | request id =>
      simp only [step] at hst
      split at hst
      · cases hst; exact h.enters .server [id]
      · cases hst
    | shutDown =>
      simp only [step] at hst
      split at hst
      · cases hst; exact ⟨fun _ => hg, fun _ => rfl, h.launched⟩
      · cases hst
    | register n | update n | heartbeat n | finish n state | exit n | reap n =>
      obtain ⟨n, p, q, ha⟩ := process_cases rfl hst
      exact h.acts ha
    | clock time => cases hst; exact h.congr rfl rfl rfl h.launched

/-- A start that goes on to its launch after the flag was set. -/
theorem late_of_passed (hf : s.shutdown_requested = true) {th : Thread} {c : Call} (hc : s.call th = some c)
    (hpc : c.pc.passed = true) (hk : t.service c.id ≠ none)
    (hst : startable (s.services.state c.id) = true) :
    ∃ ls s', LTS.exec (step t) s ls = some s' ∧ ∃ p ∈ s'.launched, p.id = c.id ∧ p.late = true := by
  have hcreate : ∀ s₀ : Launching, s₀.shutdown_requested = true → ∀ c₀, s₀.call th = some c₀ →
      c₀.pc = .create → c₀.id = c.id → ∃ s', LTS.exec (step t) s₀ [.call th .ideal] = some s' ∧
        ∃ p ∈ s'.launched, p.id = c.id ∧ p.late = true := by
    intro s₀ hf₀ c₀ hc₀ hpc₀ hid
    refine ⟨(s₀.launch c₀.id 1).goTo th (some { c₀ with pc := .writeState s₀.launched.length }), ?_,
      _, List.mem_append_right _ List.mem_cons_self, hid, hf₀⟩
    simp only [LTS.exec, step, hc₀, Option.map_some, Option.bind_some]
    rw [callStep_ideal hpc₀ (by rw [hid]; exact hk)]
  cases hpc' : c.pc with
  | create =>
    obtain ⟨s', hs', hp⟩ := hcreate s hf c hc hpc' rfl
    exact ⟨_, s', hs', hp⟩
  | testState =>
    have hstep : step t s (.call th .ideal) = some (s.goTo th (some { c with pc := .create })) := by
      simp only [step, hc, Option.map_some, callStep, hpc', hst, if_true]
    obtain ⟨s', hs', hp⟩ := hcreate (s.goTo th (some { c with pc := .create })) hf _ (call_goTo_self ..) rfl rfl
    refine ⟨[.call th .ideal, .call th .ideal], s', ?_, hp⟩
    rw [LTS.exec, hstep]
    exact hs'
  | testKnown =>
    obtain ⟨ref, href⟩ := Option.ne_none_iff_exists'.mp hk
    have hstep : step t s (.call th .ideal) = some (s.goTo th (some { c with pc := .testState })) := by
      simp only [step, hc, Option.map_some, callStep, hpc', href]
    have hstep' : step t (s.goTo th (some { c with pc := .testState })) (.call th .ideal) =
        some ((s.goTo th (some { c with pc := .testState })).goTo th (some { c with pc := .create })) := by
      simp only [step, call_goTo_self, Option.map_some, callStep]
      rw [show startable ((s.goTo th _).services.state c.id) = true from hst]
      rfl
    obtain ⟨s', hs', hp⟩ := hcreate
      ((s.goTo th (some { c with pc := .testState })).goTo th (some { c with pc := .create })) hf _
      (call_goTo_self ..) rfl rfl
    refine ⟨[.call th .ideal, .call th .ideal, .call th .ideal], s', ?_, hp⟩
    rw [LTS.exec, hstep, Option.bind_some, LTS.exec, hstep']
    exact hs'
  | testRequested => rw [hpc'] at hpc; cases hpc
  | writeState n => rw [hpc'] at hpc; cases hpc
  | writeProcessId n => rw [hpc'] at hpc; cases hpc
  | tune => rw [hpc'] at hpc; cases hpc

/-- The two steps that set the flag leave the calls and the states alone. -/
theorem sets_of_not_inTime {l : LaunchStep} (hl : ¬ InTime s l) (hst : step t s l = some s') :
    s'.shutdown_requested = true ∧ s'.call = s.call ∧ s'.services.state = s.services.state := by
  cases l with
  | shutDown =>
    simp only [step] at hst
    split at hst
    · cases hst; exact ⟨rfl, rfl, rfl⟩
    · cases hst
  | main o =>
    simp only [InTime, not_forall] at hl
    obtain ⟨hm, -⟩ := hl
    simp only [step, mainStep, hm] at hst
    cases hst
    exact ⟨rfl, rfl, rfl⟩
  | call th h => exact absurd trivial hl
  | overflow th => exact absurd trivial hl
  | keyboardInterrupt => exact absurd trivial hl
  | request id => exact absurd trivial hl
  | register n => exact absurd trivial hl
  | update n => exact absurd trivial hl
  | heartbeat n => exact absurd trivial hl
  | finish n state => exact absurd trivial hl
  | exit n => exact absurd trivial hl
  | reap n => exact absurd trivial hl
  | clock time => exact absurd trivial hl

end Launching

open Launching

/-- **Launched in time.** No process is launched after `shutdown_requested`
was set, and none of a service that `shut_down_all_services` dropped, in every
run that sets the flag while no start is on its way to a launch. Set while one
is, of a service that can be started, the flag can be followed by its launch. -/
theorem launched_in_time (t : Testbed) :
    (∀ s, ((launching t).restrict InTime).Reachable s →
      ∀ p ∈ s.launched, p.late = false ∧ p.dropped = false) ∧
    ∀ s l s', step t s l = some s' → ¬ InTime s l →
      ∀ th c, s.call th = some c → c.pc.passed = true → t.service c.id ≠ none →
        startable (s.services.state c.id) = true →
          ∃ ls s'', LTS.exec (step t) s' ls = some s'' ∧
            ∃ p ∈ s''.launched, p.id = c.id ∧ p.late = true := by
  refine ⟨fun s hs => ((early_inductive t).reachable s hs).launched,
    fun s l s' hst hl th c hc hpc hk hstart => ?_⟩
  obtain ⟨hf, hcall, hstate⟩ := sets_of_not_inTime hl hst
  exact late_of_passed hf (by rw [hcall]; exact hc) hpc hk (by rw [hstate]; exact hstart)

/-! ## A power supply that is started too late -/

namespace Launching

instance (s : Launching) : Decidable s.Quiet :=
  decidable_of_iff
    ((∀ c ∈ s.call .main, c.pc.passed = false) ∧ ∀ c ∈ s.call .server, c.pc.passed = false)
    ⟨fun h th c hc => by cases th; exacts [h.1 c hc, h.2 c hc], fun h => ⟨h .main, h .server⟩⟩

instance : ∀ (s : Launching) (l : LaunchStep), Decidable (InTime s l)
  | s, .shutDown => inferInstanceAs (Decidable s.Quiet)
  | s, .main _ => inferInstanceAs (Decidable (s.main = .leaving → s.Quiet))
  | _, .call _ _ | _, .keyboardInterrupt | _, .overflow _ | _, .request _ | _, .register _
  | _, .update _ | _, .heartbeat _ | _, .finish _ _ | _, .exit _ | _, .reap _ | _, .clock _ => isTrue trivial

end Launching

/-- The request to shut down comes after the start. -/
def inOrder : List LaunchStep :=
  .main .ok :: .request upsId :: startsAs .server 7 ++ .shutDown :: List.replicate 4 (.main .ok)

theorem launched_in_time_ups : ∃ s : Launching, s.main = .shutDown ∧ s.launched.length = 1 ∧
    ∀ p ∈ s.launched, p.late = false ∧ p.dropped = false := by
  obtain ⟨s, hs, hm, hlen⟩ : ∃ s,
      LTS.exec (LTS.guarded Launching.InTime (Launching.step cameraTestbed)) (comingUp [])
        inOrder = some s ∧
      s.main = .shutDown ∧ s.launched.length = 1 := ⟨_, rfl, by decide, by decide⟩
  exact ⟨s, hm, hlen, (launched_in_time cameraTestbed).1 s (.of_guarded (comingUp_init _) hs)⟩

/-- Interrupted while the server is about to launch the power supply, the main
thread sees no process of it, drops it, and is done with it. -/
theorem launched_too_late : ¬ ∀ t s, (launching t).Reachable s →
    ∀ p ∈ s.launched, p.late = false ∧ p.dropped = false := by
  intro h
  obtain ⟨s, hs, p, hp, hlate, -⟩ : ∃ s, LTS.exec (Launching.step cameraTestbed) (comingUp [])
      (.main .ok :: .request upsId :: List.replicate 3 (.call .server .ideal) ++
        .keyboardInterrupt :: List.replicate 9 (.main .ok) ++ [.call .server (.giving 7)]) = some s ∧
      ∃ p ∈ s.launched, p.late = true ∧ p.dropped = true :=
    ⟨_, rfl, _, List.mem_cons_self, by decide, by decide⟩
  have := (h _ _ (.of_exec (comingUp_init _) hs) p hp).1
  rw [hlate] at this
  cases this

end Catkit2.L4
