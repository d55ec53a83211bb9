import Catkit2.L4Testbed.ShutDown

/-!
# How a shutdown ends (testbed.py Testbed.shut_down_all_services)

The loop ends by returning, with an empty dictionary, or by an exception of
the main thread. `Moved` says what one step of the main thread does to the
recorded processes and where it leads; `Raises` is the one way out besides the
return when no interrupt is delivered.

* `ends_with_all_gone`: the loop ends with a live process only when a call
  raises while one is alive.
* `raised_with_all_alive`: one service that does not answer its `shut_down`
  request is enough.
-/
namespace Catkit2.L4

namespace ShutDown

variable {t : Testbed} {s s' : ShutDown}

/-- Some service's recorded process is alive. -/
def AnyAlive (t : Testbed) (s : ShutDown) : Prop := ∃ id ∈ t.ids, (s.process id).isSome

def Ended (s : ShutDown) : Prop := s.pc.ended = true

/-- The call under way raises: `shut_down` fails, the process vanished since
it was seen, or it can not be signalled. -/
def Raises (s : ShutDown) (o : Outcome) : Prop :=
  match s.pc with
  | .calling .stop id _ => s.state id = .RUNNING ∧ o = .raise
  | .seen .interrupt id _ => isAliveState (s.state id) = true ∧ (s.process id = none ∨ o = .raise)
  | .seen .terminate id _ => s.process id = none ∨ o = .raise
  | _ => False

/-- No interrupt, and no call raises while a recorded process is alive. -/
def Calm (t : Testbed) (s : ShutDown) : ShutDownStep → Prop
  | .main o => Raises s o → ¬ AnyAlive t s
  | .keyboardInterrupt => False
  | _ => True

instance (t : Testbed) (s : ShutDown) : Decidable (AnyAlive t s) :=
  inferInstanceAs (Decidable (∃ id ∈ t.ids, (s.process id).isSome))

instance (s : ShutDown) (o : Outcome) : Decidable (Raises s o) := by
  unfold Raises; split <;> infer_instance

instance (t : Testbed) (s : ShutDown) (l : ShutDownStep) : Decidable (Calm t s l) := by
  unfold Calm; split <;> infer_instance

/-! ## What a main step does to the processes, and where it ends -/

theorem ended_cont (k : Cont) : k.pc.ended = false := by cases k <;> rfl

/-- What is recorded of a process is the same, or `None` where reading it gave
`None`. -/
def Forgets (s s' : ShutDown) : Prop :=
  s'.live = s.live ∧
    (s'.process_id = s.process_id ∨
      ∃ id, s.process id = none ∧ s'.process_id = Function.update s.process_id id none)

theorem Forgets.same (hl : s'.live = s.live) (hp : s'.process_id = s.process_id) : Forgets s s' :=
  ⟨hl, .inl hp⟩

theorem Forgets.forget {id : ServiceId} (h : s.process id = none) (hl : s'.live = s.live)
    (hp : s'.process_id = (s.forget id).process_id) : Forgets s s' :=
  ⟨hl, .inr ⟨id, h, hp⟩⟩

/-- A process is read as before. -/
theorem Forgets.process (h : Forgets s s') (id : ServiceId) : s'.process id = s.process id := by
  obtain ⟨hl, hp | ⟨x, hx, hp⟩⟩ := h
  · unfold ShutDown.process; rw [hl, hp]
  · by_cases hid : id = x
    · subst hid
      rw [hx]; unfold ShutDown.process; rw [hp, Function.update_self]
    · unfold ShutDown.process; rw [hl, hp, Function.update_of_ne hid]

theorem Forgets.anyAlive (h : Forgets s s') : AnyAlive t s' ↔ AnyAlive t s := by
  unfold AnyAlive
  simp only [h.process]

/-- `s'` is where the main thread got from `s`. -/
structure Moved (s : ShutDown) (o : Outcome) (s' : ShutDown) : Prop where
  forgets : Forgets s s'
  raised : s'.pc = .raised → Raises s o
  returned : s'.pc = .returned → s'.shutdown_state = []

theorem Moved.on {o : Outcome} (h : Forgets s s') (hpc : s'.pc.ended = false) : Moved s o s' := by
  refine ⟨h, fun hr => ?_, fun hr => ?_⟩
  · rw [hr] at hpc; cases hpc
  · rw [hr] at hpc; cases hpc

theorem Moved.raise {o : Outcome} (h : Forgets s s') (hpc : s'.pc = .raised) (hr : Raises s o) :
    Moved s o s' :=
  ⟨h, fun _ => hr, fun hr' => by rw [hpc] at hr'; cases hr'⟩

theorem moved_callDue {o : Outcome} {id : ServiceId} {period : ℚ} {k : Cont} :
    Moved s o (s.callDue id period k) := by
  unfold callDue
  split
  · exact .on (.same rfl rfl) (ended_cont k)
  · exact .on (.same rfl rfl) rfl

theorem moved_finish {o : Outcome} {sig : Signal} {id : ServiceId} {k : Cont} :
    Moved s o (s.finish sig id k) :=
  .on (.same rfl rfl) (ended_cont k)

theorem moved_answer {sig : Signal} {id : ServiceId} {k : Cont} {o : Outcome}
    (hr : o = .raise → Raises s o) : Moved s o (s.answer sig id k o) := by
  cases o with
  | ok => exact .on (.same rfl rfl) (ended_cont k)
  | raise => exact .raise (.same rfl rfl) rfl (hr rfl)

theorem moved_calling {sig : Signal} {id : ServiceId} {k : Cont} {o : Outcome}
    (hpc : s.pc = .calling sig id k) (hst : mainStep t s o = some s') : Moved s o s' := by
  rcases calling_cases hpc hst with ⟨-, -, rfl⟩ | ⟨rfl, hrun, rfl⟩ | ⟨-, hnone, rfl⟩ | ⟨-, rfl⟩
  · exact moved_finish
  · refine moved_answer fun ho => ?_
    unfold Raises; rw [hpc]
    exact ⟨hrun, ho⟩
  · exact .on (.forget hnone rfl rfl) (ended_cont k)
  · exact .on (.same rfl rfl) rfl

/-- At its second read, a call raises where the process vanished or the
signal fails. -/
theorem raises_seen {sig : Signal} {id : ServiceId} {k : Cont} {o : Outcome}
    (hpc : s.pc = .seen sig id k) (hs : sig ≠ .stop)
    (ha : sig = .interrupt → isAliveState (s.state id) = true) (h : s.process id = none ∨ o = .raise) :
    Raises s o := by
  unfold Raises; rw [hpc]
  cases sig with
  | stop => exact absurd rfl hs
  | interrupt => exact ⟨ha rfl, h⟩
  | terminate => exact h

theorem moved_seen {sig : Signal} {id : ServiceId} {k : Cont} {o : Outcome}
    (hpc : s.pc = .seen sig id k) (hst : mainStep t s o = some s') : Moved s o s' := by
  rcases seen_cases hpc hst with rfl | ⟨hs, ha, ⟨hnone, rfl⟩ | rfl⟩
  · exact moved_finish
  · exact .raise (.forget hnone rfl rfl) rfl (raises_seen hpc hs ha (.inl hnone))
  · exact moved_answer fun ho => raises_seen hpc hs ha (.inr ho)

/-- **Where a main step leads.** It raises only where a call does: a service
that the loop removes or signals is in the dictionary. -/
theorem moved_mainStep (h : Inv t s) {o : Outcome} (hst : mainStep t s o = some s') :
    Moved s o s' := by
  obtain ⟨-, ha⟩ := h
  have hon : ∀ pc : Pc, pc.ended = false → Moved s o { s with pc := pc } :=
    fun pc h => .on (.same rfl rfl) h
  cases hpc : s.pc with
  | loop =>
    simp only [mainStep, hpc] at hst
    split at hst
    · rename_i hempty
      cases hst
      refine ⟨.same rfl rfl, fun hr => ?_, fun _ => hempty⟩
      cases hr
    · cases hst; exact hon _ rfl
  | scan todo shut =>
    cases todo with
    | nil =>
      simp only [mainStep, hpc] at hst
      cases hst; exact hon _ rfl
    | cons id todo =>
      simp only [mainStep, hpc] at hst
      split at hst
      · rename_i hnone
        cases hst
        exact .on (.forget hnone rfl rfl) rfl
      · split at hst
        · cases hst; exact moved_callDue
        · cases hst; exact hon _ rfl
  | calling sig id k => exact moved_calling hpc hst
  | seen sig id k => exact moved_seen hpc hst
  | remove shut =>
    cases shut with
    | nil =>
      simp only [mainStep, hpc] at hst
      cases hst; exact hon _ rfl
    | cons id shut =>
      rw [hpc] at ha
      have hid : id ∈ s.keys := ha.listed id List.mem_cons_self
      simp only [mainStep, hpc, hid, if_true] at hst
      cases hst
      exact .on (.same rfl rfl) rfl
  | sleep =>
    simp only [mainStep, hpc] at hst
    cases hst; exact hon _ rfl
  | gather todo waiting =>
    cases todo with
    | nil =>
      simp only [mainStep, hpc] at hst
      cases hst; exact hon _ rfl
    | cons id todo =>
      simp only [mainStep, hpc] at hst
      split at hst
      · rename_i hnone
        cases hst
        exact .on (.forget hnone rfl rfl) rfl
      · split at hst
        · cases hst; exact hon _ rfl
        · cases hst; exact hon _ rfl
  | sleep5 waiting =>
    simp only [mainStep, hpc] at hst
    cases hst; exact hon _ rfl
  | forced todo =>
    cases todo with
    | nil =>
      simp only [mainStep, hpc] at hst
      cases hst; exact hon _ rfl
    | cons id todo =>
      rw [hpc] at ha
      have hid : id ∈ s.keys := (ha.waiting id List.mem_cons_self).1
      simp only [mainStep, hpc, hid, if_true] at hst
      cases hst
      exact moved_callDue
  | returned => simp only [mainStep, hpc] at hst; cases hst
  | raised => simp only [mainStep, hpc] at hst; cases hst

/-- No step of the environment brings a process back, or moves the main thread. -/
theorem environment_step {l : ShutDownStep} (hst : step t s l = some s') (hm : ∀ o, l ≠ .main o)
    (hk : l ≠ .keyboardInterrupt) :
    (AnyAlive t s' → AnyAlive t s) ∧ s'.pc = s.pc ∧ s'.shutdown_state = s.shutdown_state := by
  cases l with
  | main o => exact absurd rfl (hm o)
  | keyboardInterrupt => exact absurd rfl hk
  | exit pid =>
    cases hst
    refine ⟨fun ⟨id, hid, hp⟩ => ⟨id, hid, ?_⟩, rfl, rfl⟩
    unfold process at hp ⊢
    split at hp
    · cases hp
    · rename_i q hq
      rw [hq]
      by_cases hqp : q = pid
      · simp [hqp] at hp
      · simpa [hqp] using hp
  | write id state => cases hst; exact ⟨fun h => h, rfl, rfl⟩
  | clock time => cases hst; exact ⟨fun h => h, rfl, rfl⟩
  | poll id =>
    simp only [step] at hst
    split at hst
    · rename_i hnone
      cases hst
      have hf : Forgets s (s.forget id) := .forget hnone rfl rfl
      exact ⟨hf.anyAlive.mp, rfl, rfl⟩
    · cases hst; exact ⟨fun h => h, rfl, rfl⟩

/-- The loop returned with nothing left, or raised with nothing alive. -/
structure Ends (t : Testbed) (s : ShutDown) : Prop where
  returned : s.pc = .returned → s.shutdown_state = []
  raised : s.pc = .raised → ¬ AnyAlive t s

theorem ends_inductive (t : Testbed) :
    ((shutDown t).restrict (Calm t)).Inductive fun s => Inv t s ∧ Ends t s := by
  refine ⟨fun s h => ⟨(inv_inductive t).init s h, ?_⟩, fun s l s' hs hst => ?_⟩
  · obtain ⟨-, hpc, -⟩ := h
    refine ⟨fun h => ?_, fun h => ?_⟩
    · rw [hpc] at h; cases h
    · rw [hpc] at h; cases h
  · obtain ⟨hinv, hends⟩ := hs
    obtain ⟨hcalm, hst⟩ := hst
    refine ⟨(inv_inductive t).step s l s' hinv hst, ?_⟩
    simp only [shutDown, LTS.ofFn] at hst
    have henv : (∀ o, l ≠ .main o) → l ≠ .keyboardInterrupt → Ends t s' := by
      intro hm hk
      obtain ⟨h1, h2, h3⟩ := environment_step hst hm hk
      refine ⟨fun h => ?_, fun h ha => ?_⟩
      · rw [h3]; exact hends.returned (h2 ▸ h)
      · exact hends.raised (h2 ▸ h) (h1 ha)
    cases l with
    | main o =>
      have hmv := moved_mainStep hinv hst
      refine ⟨hmv.returned, fun h ha => ?_⟩
      exact hcalm (hmv.raised h) (hmv.forgets.anyAlive.mp ha)
    | keyboardInterrupt => exact absurd hcalm id
    | exit pid => exact henv (fun o h => by cases h) (fun h => by cases h)
    | write id state => exact henv (fun o h => by cases h) (fun h => by cases h)
    | clock time => exact henv (fun o h => by cases h) (fun h => by cases h)
    | poll id => exact henv (fun o h => by cases h) (fun h => by cases h)

/-- Once everything left the dictionary, everything is gone. -/
theorem Good.noneAlive (h : Good t s) (hs : s.shutdown_state = []) : ¬ AnyAlive t s := by
  intro hany
  obtain ⟨id, hid, hp⟩ := hany
  have hk : id ∉ s.keys := by unfold keys; rw [hs]; exact List.not_mem_nil
  unfold process at hp
  rw [h.noProcess id (h.gone id hid hk)] at hp
  cases hp

/-- A call that raises ends the loop, whatever is alive. -/
theorem ended_of_raises {o : Outcome} (hr : Raises s o) (hst : mainStep t s o = some s') :
    s'.pc = .raised ∧ Forgets s s' := by
  unfold Raises at hr
  split at hr
  · rename_i id k hpc
    obtain ⟨hrun, rfl⟩ := hr
    simp only [mainStep, hpc, hrun] at hst
    cases hst
    exact ⟨rfl, .same rfl rfl⟩
  · rename_i id k hpc
    obtain ⟨halive, hr⟩ := hr
    simp only [mainStep, hpc, halive, if_true] at hst
    split at hst
    · rename_i hnone
      cases hst; exact ⟨rfl, .forget hnone rfl rfl⟩
    · rename_i pid hsome
      rcases hr with hnone | rfl
      · rw [hnone] at hsome; cases hsome
      · cases hst; exact ⟨rfl, .same rfl rfl⟩
  · rename_i id k hpc
    simp only [mainStep, hpc] at hst
    split at hst
    · rename_i hnone
      cases hst; exact ⟨rfl, .forget hnone rfl rfl⟩
    · rename_i pid hsome
      rcases hr with hnone | rfl
      · rw [hnone] at hsome; cases hsome
      · cases hst; exact ⟨rfl, .same rfl rfl⟩
  · exact absurd hr id

/-- What is due is called when the scan comes to it. -/
theorem escalates {id : ServiceId} {todo shut : List ServiceId} {sig : Signal} {o : Outcome}
    (hpc : s.pc = .scan (id :: todo) shut) (hp : (s.process id).isSome) (he : eligible t s id = true)
    (hd : s.due id 60 = some sig) (hst : mainStep t s o = some s') :
    s'.log = s.log ++ [.signal sig id] := by
  obtain ⟨pid, hpid⟩ := Option.isSome_iff_exists.mp hp
  simp only [mainStep, hpc, hpid, he, if_true, callDue, hd] at hst
  cases hst
  rfl

end ShutDown

open ShutDown

/-- **The end.** In every run without a `KeyboardInterrupt` in which no call
raises while a process is alive, nothing is alive when the loop ends; a call
that raises then ends it. A live service whose turn it is gets the call that
is due, `interrupt` only after `stop`, `terminate` only after `interrupt`. -/
theorem ends_with_all_gone (t : Testbed) :
    (∀ s, ((shutDown t).restrict (Calm t)).Reachable s → Ended s → ¬ AnyAlive t s) ∧
    (∀ s o s', mainStep t s o = some s' → Raises s o → AnyAlive t s → Ended s' ∧ AnyAlive t s') ∧
    (∀ s id todo shut sig o s', s.pc = .scan (id :: todo) shut → (s.process id).isSome →
      eligible t s id = true → s.due id 60 = some sig → mainStep t s o = some s' →
      s'.log = s.log ++ [.signal sig id]) ∧
    ∀ s, (shutDown t).Reachable s → ∀ l₁ id l₂,
      (s.log = l₁ ++ .signal .interrupt id :: l₂ → .signal .stop id ∈ l₁) ∧
      (s.log = l₁ ++ .signal .terminate id :: l₂ → .signal .interrupt id ∈ l₁) := by
  refine ⟨fun s h hend => ?_, fun s o s' hst hr ha => ?_, ?_, fun s h l₁ id l₂ => ?_⟩
  · obtain ⟨hinv, hends⟩ := (ends_inductive t).reachable s h
    unfold Ended Pc.ended at hend
    split at hend
    · rename_i hpc; exact hinv.good.noneAlive (hends.returned hpc)
    · rename_i hpc; exact hends.raised hpc
    · cases hend
  · obtain ⟨hpc, hf⟩ := ended_of_raises hr hst
    refine ⟨?_, hf.anyAlive.mpr ha⟩
    unfold Ended; rw [hpc]; rfl
  · intro s id todo shut sig o s' hpc hp he hd hst
    exact escalates hpc hp he hd hst
  · have hj := ((inv_inductive t).reachable s h).good.justified
    exact ⟨fun hl => hj l₁ _ l₂ hl _ rfl, fun hl => hj l₁ _ l₂ hl _ rfl⟩

/-- Stopped in turn, both exit and the loop returns. -/
theorem ends_with_all_gone_stopped : ∃ s : ShutDown, Ended s ∧
    .signal .stop safetyId ∈ s.log ∧ ¬ AnyAlive mirrorTestbed s := by
  obtain ⟨s, hs, hend, hlog⟩ : ∃ s, LTS.exec (LTS.guarded (Calm mirrorTestbed) (step mirrorTestbed))
      bothRunning (inTurn ++ .main .ok :: .exit 2 :: List.replicate 10 (.main .ok)) = some s ∧
      Ended s ∧ .signal .stop safetyId ∈ s.log := ⟨_, rfl, by rfl, by decide⟩
  refine ⟨s, hend, hlog, ?_⟩
  exact (ends_with_all_gone mirrorTestbed).1 s
    (.of_guarded bothRunning_init hs) hend

/-- Without a `KeyboardInterrupt`. -/
def Uninterrupted (_ : ShutDown) : ShutDownStep → Prop
  | .keyboardInterrupt => False
  | _ => True

instance (s : ShutDown) (l : ShutDownStep) : Decidable (Uninterrupted s l) := by
  unfold Uninterrupted; split <;> infer_instance

/-- The monitor is not due before the mirror, which does not answer its
`shut_down` request in time: the loop raises with both processes alive. -/
theorem raised_with_all_alive : ¬ ∀ t s, ((shutDown t).restrict Uninterrupted).Reachable s →
    Ended s → ¬ AnyAlive t s := by
  intro h
  obtain ⟨s, hs, hend, halive⟩ : ∃ s, LTS.exec (LTS.guarded Uninterrupted (step mirrorTestbed))
      bothRunning [.main .ok, .main .ok, .main .ok, .main .raise] = some s ∧
      Ended s ∧ AnyAlive mirrorTestbed s := ⟨_, rfl, by rfl, by decide⟩
  exact h _ _ (.of_guarded bothRunning_init hs) hend halive

end Catkit2.L4
