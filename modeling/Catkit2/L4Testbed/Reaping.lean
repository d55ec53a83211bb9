import Catkit2.Core.LTS
import Mathlib.Data.List.Nodup
import Mathlib.Data.List.Perm.Basic

/-!
# Reaping the processes that exited (testbed.py, Testbed.monitor_services)

Every 0.1 s the monitor thread goes through `launched_processes`, and removes a
process that exited from the list it goes through: the `for` loop goes on with the
index after it, and so passes over the process that took its place. Other threads
launch processes meanwhile, and processes exit at any time.

A step is one access to the list or to a process. What else a pass does, and how the
monitor thread may die of it, is in `Monitor`.

* `accounted_step`: no process is lost, and none is reaped that runs.
* `reaped_by`: a process that exited is reaped in the pass after at most as many
  passes as there are processes before it, however the threads go on.
-/
namespace Catkit2.L4.Reaping

variable {Process : Type} [DecidableEq Process]

/-- Where the monitor thread is; `index` is that of the element the loop is at.
mirrors catkit2/testbed/testbed.py:376-385 -/
inductive MonitorAt (Process : Type) where
  | sleep
  | next (index : Nat)
  | poll (index : Nat) (process : Process)
  | communicate (index : Nat) (process : Process)
  | remove (index : Nat) (process : Process)

/-- `passes` counts the passes that are done, `all` are the processes ever launched. -/
structure State (Process : Type) where
  launched_processes : List Process
  exited : Process → Bool
  monitor : MonitorAt Process
  passes : Nat
  all : List Process
  reaped : List Process

inductive Step (Process : Type) where
  | launch (process : Process)
  | exit (process : Process)
  | monitor

namespace State

def init : State Process := ⟨[], fun _ => false, .sleep, 0, [], []⟩

/-- mirrors catkit2/testbed/testbed.py:376-385 -/
def monitorStep (s : State Process) : State Process :=
  match s.monitor with
  | .sleep => { s with monitor := .next 0 }
  | .next index =>
    match s.launched_processes[index]? with
    | none => { s with monitor := .sleep, passes := s.passes + 1 }
    | some process => { s with monitor := .poll index process }
  | .poll index process =>
    { s with monitor := if s.exited process then .communicate index process else .next (index + 1) }
  | .communicate index process => { s with monitor := .remove index process }
  | .remove index process =>
    { s with
      launched_processes := s.launched_processes.erase process
      reaped := s.reaped ++ [process]
      monitor := .next (index + 1) }

/-- `subprocess.Popen` gives a new object each time.
mirrors catkit2/testbed/testbed.py:660 -/
def step (s : State Process) : Step Process → Option (State Process)
  | .launch process =>
    if process ∈ s.all then none
    else some { s with launched_processes := s.launched_processes ++ [process], all := s.all ++ [process] }
  | .exit process => some { s with exited := fun p => p = process || s.exited p }
  | .monitor => some s.monitorStep

end State

open State

def reaping (Process : Type) [DecidableEq Process] : LTS (State Process) (Step Process) := .ofFn (· = .init) step

/-! ## No process is lost -/

/-- The element that the loop is at. -/
def MonitorAt.Holds (s : State Process) : MonitorAt Process → Prop
  | .sleep | .next _ => True
  | .poll index process => s.launched_processes[index]? = some process
  | .communicate index process | .remove index process =>
    s.launched_processes[index]? = some process ∧ s.exited process = true

structure Accounted (s : State Process) : Prop where
  nodup : s.all.Nodup
  parts : (s.launched_processes ++ s.reaped).Perm s.all
  exited : ∀ p ∈ s.reaped, s.exited p = true
  holds : s.monitor.Holds s

omit [DecidableEq Process] in
theorem Accounted.launched_nodup {s : State Process} (h : Accounted s) : s.launched_processes.Nodup :=
  (List.nodup_append.mp (h.parts.nodup_iff.mpr h.nodup)).1

omit [DecidableEq Process] in
/-- What the monitor thread holds, it holds after steps that only add to the list and to
the processes that exited. -/
theorem MonitorAt.Holds.mono {s s' : State Process} {pc : MonitorAt Process} (h : pc.Holds s)
    (hlist : ∀ (i : Nat) p, s.launched_processes[i]? = some p → s'.launched_processes[i]? = some p)
    (hexited : ∀ p, s.exited p = true → s'.exited p = true) : pc.Holds s' := by
  cases pc with
  | sleep => trivial
  | next index => trivial
  | poll index process => exact hlist _ _ h
  | communicate index process => exact ⟨hlist _ _ h.1, hexited _ h.2⟩
  | remove index process => exact ⟨hlist _ _ h.1, hexited _ h.2⟩

theorem accounted_monitorStep {s : State Process} (h : Accounted s) : Accounted s.monitorStep := by
  have hholds := h.holds
  unfold monitorStep
  split <;> rename_i hat <;> rw [hat] at hholds
  · exact ⟨h.nodup, h.parts, h.exited, trivial⟩
  · split
    · exact ⟨h.nodup, h.parts, h.exited, trivial⟩
    · rename_i hget
      exact ⟨h.nodup, h.parts, h.exited, hget⟩
  · refine ⟨h.nodup, h.parts, h.exited, ?_⟩
    dsimp only
    split
    · rename_i hexited
      exact ⟨hholds, hexited⟩
    · trivial
  · exact ⟨h.nodup, h.parts, h.exited, hholds⟩
  · rename_i index process
    have hmem : process ∈ s.launched_processes := List.mem_of_getElem? hholds.1
    refine ⟨h.nodup, ?_, fun p hp => ?_, trivial⟩
    · have hmoved : (s.launched_processes.erase process ++ (s.reaped ++ [process])).Perm
          (process :: s.launched_processes.erase process ++ s.reaped) := by
        rw [← List.append_assoc]
        exact List.perm_append_singleton ..
      exact (hmoved.trans ((List.perm_cons_erase hmem).symm.append_right s.reaped)).trans h.parts
    · obtain hp | hp := List.mem_append.mp hp
      · exact h.exited p hp
      · rw [List.mem_singleton.mp hp]
        exact hholds.2

theorem accounted_step {s s' : State Process} {l : Step Process} (h : Accounted s) (hs : s.step l = some s') :
    Accounted s' := by
  cases l with
  | launch process =>
    simp only [step] at hs
    split at hs <;> rename_i hnew <;> cases hs
    refine ⟨?_, ?_, h.exited, ?_⟩
    · exact List.nodup_append.mpr ⟨h.nodup, List.nodup_singleton _, fun a ha b hb heq => by
        rw [List.mem_singleton] at hb
        exact hnew (hb ▸ heq ▸ ha)⟩
    · have hmoved : (s.launched_processes ++ [process] ++ s.reaped).Perm
          (s.launched_processes ++ s.reaped ++ [process]) := by
        rw [List.append_assoc, List.append_assoc]
        exact List.Perm.append_left _ List.perm_append_comm
      exact hmoved.trans (h.parts.append_right _)
    · refine h.holds.mono (fun i p hget => ?_) fun _ hp => hp
      exact List.getElem?_append_left (List.getElem?_eq_some_iff.mp hget).1 ▸ hget
  | exit process =>
    cases hs
    have hexited : ∀ p, s.exited p = true → (decide (p = process) || s.exited p) = true := fun p hp => by simp [hp]
    exact ⟨h.nodup, h.parts, fun p hp => hexited p (h.exited p hp), h.holds.mono (fun _ _ hget => hget) hexited⟩
  | monitor =>
    cases hs
    exact accounted_monitorStep h

theorem accounted_reachable {s : State Process} (h : (reaping Process).Reachable s) : Accounted s := by
  have hinit : ∀ s, (reaping Process).init s → Accounted s := by
    intro s hs
    subst hs
    exact ⟨List.nodup_nil, .nil, fun p hp => (List.not_mem_nil hp).elim, trivial⟩
  have hind : (reaping Process).Inductive Accounted := ⟨hinit, fun _ _ _ hi hs => accounted_step hi hs⟩
  exact hind.reachable s h

/-! ## How many passes -/

/-- The element at which the monitor thread is, or is next. -/
def MonitorAt.index : MonitorAt Process → Nat
  | .sleep => 0
  | .next index | .poll index _ | .communicate index _ | .remove index _ => index

/-- The passes that end until the element at `j` is looked at, when the loop is at `i`. -/
def need (i j : Nat) : Nat := if i ≤ j then j else j + 1

/-- Where the element at `j` is once the one at `i` is removed. -/
def shifted (i j : Nat) : Nat := if i < j then j - 1 else j

theorem need_next {i j : Nat} (h : i ≠ j) : need (i + 1) j = need i j := by
  unfold need
  split <;> split <;> omega

theorem need_shifted {i j : Nat} (h : i ≠ j) : need (i + 1) (shifted i j) ≤ need i j := by
  unfold need shifted
  split <;> split <;> split <;> omega

theorem need_again {i j : Nat} (h : j < i) : need 0 j + 1 = need i j := by
  unfold need
  split <;> split <;> omega

theorem getElem?_erase_shifted {l : List Process} (hl : l.Nodup) {i j : Nat} {p q : Process}
    (hp : l[i]? = some p) (hq : l[j]? = some q) (h : i ≠ j) : (l.erase p)[shifted i j]? = some q := by
  obtain ⟨hi, hget⟩ := List.getElem?_eq_some_iff.mp hp
  rw [← hget, hl.erase_getElem i hi, List.getElem?_eraseIdx]
  unfold shifted
  split <;> split
  · omega
  · have hj : j - 1 + 1 = j := by omega
    rw [hj]
    exact hq
  · exact hq
  · omega

/-- `q` is in the list, and looked at after at most `n` more passes. -/
def Within (s : State Process) (q : Process) (n : Nat) : Prop :=
  ∃ j, s.launched_processes[j]? = some q ∧ need s.monitor.index j ≤ n

theorem within_monitorStep {s : State Process} {q : Process} {n : Nat} (h : Accounted s) (hexited : s.exited q = true)
    (hw : Within s q n) : q ∈ s.monitorStep.reaped ∨
      ∃ m, Within s.monitorStep q m ∧ m + s.monitorStep.passes ≤ n + s.passes := by
  have hholds := h.holds
  obtain ⟨j, hq, hneed⟩ := hw
  unfold monitorStep
  split <;> rename_i hat <;> rw [hat] at hholds hneed
  · exact .inr ⟨n, ⟨j, hq, hneed⟩, Nat.le_refl _⟩
  · rename_i index
    split <;> rename_i hget
    · have hlen : s.launched_processes.length ≤ index := List.getElem?_eq_none_iff.mp hget
      have hj : j < s.launched_processes.length := (List.getElem?_eq_some_iff.mp hq).1
      have hagain : need 0 j + 1 = need index j := need_again (by omega)
      simp only [MonitorAt.index] at hneed
      exact .inr ⟨n - 1, ⟨j, hq, by simp only [MonitorAt.index]; omega⟩, by dsimp only; omega⟩
    · exact .inr ⟨n, ⟨j, hq, hneed⟩, Nat.le_refl _⟩
  · rename_i index process
    right
    dsimp only
    split <;> rename_i hpoll
    · exact ⟨n, ⟨j, hq, hneed⟩, Nat.le_refl _⟩
    · have hne : index ≠ j := by
        intro heq
        subst heq
        cases hholds.symm.trans hq
        exact hpoll hexited
      exact ⟨n, ⟨j, hq, by rw [MonitorAt.index, need_next hne]; exact hneed⟩, Nat.le_refl _⟩
  · exact .inr ⟨n, ⟨j, hq, hneed⟩, Nat.le_refl _⟩
  · rename_i index process
    by_cases hne : index = j
    · subst hne
      cases hholds.1.symm.trans hq
      exact .inl (List.mem_append_right _ (List.mem_singleton_self _))
    · refine .inr ⟨n, ⟨shifted index j, getElem?_erase_shifted h.launched_nodup hholds.1 hq hne, ?_⟩, Nat.le_refl _⟩
      exact Nat.le_trans (need_shifted hne) hneed

theorem within_step {s s' : State Process} {l : Step Process} {q : Process} {n : Nat} (h : Accounted s)
    (hexited : s.exited q = true) (hw : Within s q n) (hs : s.step l = some s') :
    s'.exited q = true ∧ (q ∈ s'.reaped ∨ ∃ m, Within s' q m ∧ m + s'.passes ≤ n + s.passes) := by
  cases l with
  | launch process =>
    simp only [step] at hs
    split at hs <;> cases hs
    obtain ⟨j, hq, hneed⟩ := hw
    refine ⟨hexited, .inr ⟨n, ⟨j, ?_, hneed⟩, Nat.le_refl _⟩⟩
    exact List.getElem?_append_left (List.getElem?_eq_some_iff.mp hq).1 ▸ hq
  | exit process =>
    cases hs
    exact ⟨by simp [hexited], .inr ⟨n, hw, Nat.le_refl _⟩⟩
  | monitor =>
    cases hs
    refine ⟨?_, within_monitorStep h hexited hw⟩
    unfold monitorStep
    split <;> (try split) <;> exact hexited

theorem reaped_step {s s' : State Process} {l : Step Process} {q : Process} (hq : q ∈ s.reaped)
    (hs : s.step l = some s') : q ∈ s'.reaped := by
  cases l with
  | launch process =>
    simp only [step] at hs
    split at hs <;> cases hs
    exact hq
  | exit process => cases hs; exact hq
  | monitor =>
    cases hs
    unfold monitorStep
    split <;> (try split) <;> first | exact hq | exact List.mem_append_left _ hq

/-- What a run does to a process that exited: it is reaped, or the passes that end in the run
are taken off those that it waits for. -/
theorem within_run {s s' : State Process} {ls : List (Step Process)} {q : Process} {n : Nat} (h : Accounted s)
    (hexited : s.exited q = true) (hw : Within s q n) (hr : (reaping Process).Run s ls s') :
    q ∈ s'.reaped ∨ ∃ m, Within s' q m ∧ m + s'.passes ≤ n + s.passes := by
  induction hr generalizing n with
  | nil => exact .inr ⟨n, hw, Nat.le_refl _⟩
  | cons hs hr ih =>
    obtain ⟨hexited', hreaped | ⟨m, hwithin, hle⟩⟩ := within_step h hexited hw hs
    · exact .inl (hr.preserves (I := (q ∈ ·.reaped)) (fun _ _ _ hq hs => reaped_step hq hs) hreaped)
    · obtain hreaped | ⟨m', hwithin', hle'⟩ := ih (accounted_step h hs) hexited' hwithin
      · exact .inl hreaped
      · exact .inr ⟨m', hwithin', by omega⟩

/-- Whatever the threads do, a process that exited with `j` processes before it in the list
is reaped once `j + 2` more passes are done. No process is lost: the list and what was
reaped are all that was launched, and what was reaped had exited. -/
theorem reaped_by {s s' : State Process} {ls : List (Step Process)} {q : Process} {j : Nat}
    (hreach : (reaping Process).Reachable s) (hr : (reaping Process).Run s ls s') :
    ((s.launched_processes[j]? = some q ∧ s.exited q = true ∧ s.passes + j + 2 ≤ s'.passes) → q ∈ s'.reaped) ∧
      (s'.launched_processes ++ s'.reaped).Perm s'.all ∧ ∀ p ∈ s'.reaped, s'.exited p = true := by
  have h := accounted_reachable hreach
  have h' : Accounted s' := hr.preserves (I := Accounted) (fun _ _ _ hi hs => accounted_step hi hs) h
  refine ⟨fun hq => ?_, h'.parts, h'.exited⟩
  obtain ⟨hget, hexited, hpasses⟩ := hq
  have hneed : need s.monitor.index j ≤ j + 1 := by
    unfold need
    split <;> omega
  obtain hreaped | ⟨m, -, hle⟩ := within_run h hexited ⟨j, hget, hneed⟩ hr
  · exact hreaped
  · omega

/-- Two processes that exited before the first pass, which passes over the second one. -/
def bothExited : List (Step Nat) := [.launch 0, .launch 1, .exit 0, .exit 1]

theorem reaped_by_two : ∃ s s' : State Nat, s.launched_processes = [0, 1] ∧ s'.passes = 3 ∧ 1 ∈ s'.reaped := by
  obtain ⟨s, s', hexec, hexec', hlist, hexited, hpasses, hpasses'⟩ : ∃ s s' : State Nat,
      LTS.exec State.step State.init bothExited = some s ∧ LTS.exec State.step s (List.replicate 14 .monitor) = some s' ∧
      s.launched_processes = [0, 1] ∧ s.exited 1 = true ∧ s.passes = 0 ∧ s'.passes = 3 :=
    ⟨_, _, rfl, rfl, rfl, rfl, rfl, rfl⟩
  have hreach : (reaping Nat).Reachable s := LTS.Reachable.of_exec rfl hexec
  have hrun : (reaping Nat).Run s (List.replicate 14 .monitor) s' := LTS.run_of_exec _ _ _ _ _ hexec'
  have hget : s.launched_processes[1]? = some 1 := by rw [hlist]; rfl
  exact ⟨s, s', hlist, hpasses', (reaped_by hreach hrun).1 ⟨hget, hexited, by omega⟩⟩

end Catkit2.L4.Reaping
