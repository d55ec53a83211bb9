import Mathlib.Data.List.Basic

/-!
# The output file of a LogWriter (catkit2/testbed/logging.py)

`output_to` is a context manager around the setter of `output_filename`: it
sets the new name, runs its body, and sets the old name again. The setter
closes the file that is open, opens the new one, and only then records the
name, so that a failing `open` leaves the writer without a file under the
name it had.

Whether a call of `open` fails is told by its number (`fails`). A run records
what the writer is between any two operations, and on both sides of every
context.

* `sound_iff`: contexts restore the file and the name goes with the file
  exactly when `open` fails only on entering a context without a file.
-/
namespace Catkit2.L4.LogOutput

variable {Name : Type}

/-! ## The writer -/

/-- A `LogWriter`; `output_file` is the name of the file that is open. -/
structure Writer (Name : Type) where
  output_file : Option Name
  output_filename : Option Name

namespace Writer

/-- mirrors catkit2/testbed/logging.py:89-90 -/
def init : Writer Name := ⟨none, none⟩

/-- Where a message goes: without a file it is dropped.
mirrors catkit2/testbed/logging.py:134-138 -/
def destination (w : Writer Name) : Option Name := w.output_file

/-- A file is open exactly when there is a name, and it is the one named. -/
def Consistent (w : Writer Name) : Prop := w.output_file = w.output_filename

end Writer

/-- `opens` counts the calls of `open`. -/
structure State (Name : Type) where
  writer : Writer Name
  opens : Nat

/-- mirrors catkit2/testbed/logging.py:112-123 -/
def setOutputFilename (fails : Nat → Bool) (name : Option Name) (s : State Name) : State Name × Bool :=
  let closed : Writer Name := { s.writer with output_file := none }
  match name with
  | none => (⟨{ closed with output_filename := none }, s.opens⟩, false)
  | some n =>
    if fails s.opens then (⟨closed, s.opens + 1⟩, true)
    else (⟨{ closed with output_file := some n, output_filename := some n }, s.opens + 1⟩, false)

/-! ## Programs -/

/-- What happens to the output of a writer in a run: code that raises, one
piece after another, `try` with a handler, and contexts. -/
inductive Program (Name : Type) where
  | done
  | throw
  | seq (p q : Program Name)
  | tryExcept (p handler : Program Name)
  | outputTo (name : Option Name) (body : Program Name)

inductive Event (Name : Type) where
  /-- Between two operations. -/
  | between (w : Writer Name)
  /-- A context was left, or not entered. -/
  | context (before after : Writer Name)
  /-- `open` failed, on entering or on leaving a context. -/
  | openFailed (entering : Bool) (before : Writer Name)

structure Run (Name : Type) where
  state : State Name
  raised : Bool
  events : List (Event Name)

/-- The body of a context has run: the old name is set again. -/
def leave (fails : Nat → Bool) (before : Writer Name) (r : Run Name) : Run Name :=
  match setOutputFilename fails before.output_filename r.state with
  | (s, false) => ⟨s, r.raised, r.events ++ [.between s.writer, .context before s.writer]⟩
  | (s, true) => ⟨s, true, r.events ++
      [.openFailed false r.state.writer, .between s.writer, .context before s.writer]⟩

/-- mirrors catkit2/testbed/logging.py:96-106 (`outputTo`) -/
def exec (fails : Nat → Bool) : Program Name → State Name → Run Name
  | .done, s => ⟨s, false, [.between s.writer]⟩
  | .throw, s => ⟨s, true, [.between s.writer]⟩
  | .seq p q, s =>
    let r := exec fails p s
    if r.raised then r
    else
      let r' := exec fails q r.state
      ⟨r'.state, r'.raised, r.events ++ r'.events⟩
  | .tryExcept p handler, s =>
    let r := exec fails p s
    if r.raised then
      let r' := exec fails handler r.state
      ⟨r'.state, r'.raised, r.events ++ r'.events⟩
    else r
  | .outputTo name body, s =>
    match setOutputFilename fails name s with
    | (s', true) => ⟨s', true,
        [.openFailed true s.writer, .between s'.writer, .context s.writer s'.writer]⟩
    | (s', false) =>
      let r := exec fails body s'
      leave fails s.writer ⟨r.state, r.raised, .between s'.writer :: r.events⟩

/-- An experiment prepares its output path, and runs its three parts with the
output in its own log file. mirrors catkit2/testbed/experiment.py:85-116 -/
def experimentRun (prepare : Program Name) (log_filename : Name)
    (pre_experiment experiment post_experiment : Program Name) : Program Name :=
  .seq prepare (.outputTo (some log_filename) (.seq pre_experiment (.seq experiment post_experiment)))

/-! ## What a run promises -/

namespace Event

/-- The writer is consistent, and a context leaves it writing where it wrote. -/
def Sound : Event Name → Prop
  | between w => w.Consistent
  | context before after => after.destination = before.destination
  | openFailed _ _ => True

/-- `open` fails only on entering a context, with no file in use. -/
def Harmless : Event Name → Prop
  | between _ => True
  | context _ _ => True
  | openFailed entering before => entering = true ∧ before.output_filename = none

@[simp] theorem sound_between (w : Writer Name) : (between w).Sound ↔ w.Consistent := Iff.rfl

@[simp] theorem sound_context (w w' : Writer Name) :
    (context w w').Sound ↔ w'.destination = w.destination := Iff.rfl

@[simp] theorem sound_openFailed (b : Bool) (w : Writer Name) : (openFailed b w).Sound := trivial

@[simp] theorem harmless_between (w : Writer Name) : (between w).Harmless := trivial

@[simp] theorem harmless_context (w w' : Writer Name) : (context w w').Harmless := trivial

@[simp] theorem harmless_openFailed (b : Bool) (w : Writer Name) :
    (openFailed b w).Harmless ↔ b = true ∧ w.output_filename = none := Iff.rfl

end Event

def Run.Sound (r : Run Name) : Prop := ∀ e ∈ r.events, e.Sound

def Run.Harmless (r : Run Name) : Prop := ∀ e ∈ r.events, e.Harmless

/-! ## The setter -/

theorem setOutputFilename_ok {fails : Nat → Bool} {name : Option Name} {s s' : State Name}
    (h : setOutputFilename fails name s = (s', false)) : s'.writer = ⟨name, name⟩ := by
  unfold setOutputFilename at h
  cases name with
  | none =>
    cases h
    rfl
  | some n =>
    cases hf : fails s.opens with
    | true => simp [hf] at h
    | false =>
      simp only [hf] at h
      cases h
      rfl

theorem setOutputFilename_raised {fails : Nat → Bool} {name : Option Name} {s s' : State Name}
    (h : setOutputFilename fails name s = (s', true)) :
    s'.writer = ⟨none, s.writer.output_filename⟩ ∧ name ≠ none := by
  unfold setOutputFilename at h
  cases name with
  | none => cases h
  | some n =>
    cases hf : fails s.opens with
    | true =>
      simp only [hf] at h
      cases h
      exact ⟨rfl, by simp⟩
    | false => simp [hf] at h

/-! ## Runs -/

/-- What the induction carries: from a consistent writer the run is sound
exactly when it is harmless, and then it restores the writer. -/
def Restores (w : Writer Name) (r : Run Name) : Prop :=
  (r.Sound ↔ r.Harmless) ∧ (r.Harmless → r.state.writer = w)

theorem restores_append {w w' : Writer Name} {r r' : Run Name} {raised : Bool} (h : Restores w r)
    (h' : r.state.writer = w → Restores w' r') :
    Restores w' ⟨r'.state, raised, r.events ++ r'.events⟩ := by
  simp only [Restores, Run.Sound, Run.Harmless, List.forall_mem_append]
  constructor
  · constructor
    · intro ⟨hs, hs'⟩
      have hh := h.1.mp hs
      exact ⟨hh, (h' (h.2 hh)).1.mp hs'⟩
    · intro ⟨hh, hh'⟩
      exact ⟨h.1.mpr hh, (h' (h.2 hh)).1.mpr hh'⟩
  · intro ⟨hh, hh'⟩
    exact (h' (h.2 hh)).2 hh'

theorem restores_still {w : Writer Name} (h : w.Consistent) {s : State Name} (hs : s.writer = w)
    (raised : Bool) : Restores w ⟨s, raised, [.between s.writer]⟩ := by
  subst hs
  simp [Restores, Run.Sound, Run.Harmless, h]

theorem restores_left {w : Writer Name} (h : w.Consistent) {s : State Name} (hs : s.writer = w)
    (raised : Bool) : Restores w ⟨s, raised, [.between s.writer, .context w s.writer]⟩ := by
  subst hs
  simp [Restores, Run.Sound, Run.Harmless, h]

/-- A failing `open` leaves no file under the name there was: nothing is lost
on entering a context without a file, and a file is lost on leaving one. -/
theorem restores_failed {w before : Writer Name} (h : w.Consistent) {s : State Name} {entering : Bool}
    (hs : s.writer = ⟨none, before.output_filename⟩) (henter : entering = true → before = w)
    (hleave : entering = false → w.output_filename ≠ none) :
    Restores w ⟨s, true, [.openFailed entering before, .between s.writer, .context w s.writer]⟩ := by
  have hfile : w.output_file = w.output_filename := h
  cases entering with
  | true =>
    obtain rfl := henter rfl
    cases hname : before.output_filename with
    | none =>
      have hw : s.writer = before := by
        rw [hs, ← hname]
        cases before
        simp_all
      simp [Restores, Run.Sound, Run.Harmless, hname, hw, h]
    | some n => simp [Restores, Run.Sound, Run.Harmless, hs, hname, hfile, Writer.destination]
  | false =>
    have hlost : none ≠ w.output_filename := (hleave rfl).symm
    simp [Restores, Run.Sound, Run.Harmless, hs, hfile, hlost, Writer.destination]

theorem restores_leave {fails : Nat → Bool} {before w : Writer Name} {r : Run Name}
    (hb : before.Consistent) (h : Restores w r) : Restores before (leave fails before r) := by
  have hbefore : before = ⟨before.output_filename, before.output_filename⟩ := by
    cases before
    exact congrArg (Writer.mk · _) hb
  unfold leave
  cases hs : setOutputFilename fails before.output_filename r.state with
  | mk s raised =>
    cases raised with
    | false =>
      have hw : s.writer = before := (setOutputFilename_ok hs).trans hbefore.symm
      exact restores_append h fun _ => restores_left hb hw r.raised
    | true =>
      obtain ⟨hw, hname⟩ := setOutputFilename_raised hs
      exact restores_append h fun _ => restores_failed hb hw (by simp) fun _ => hname

/-- By induction over the program; the name that a context sets is consistent
with the file that it opens. -/
theorem exec_restores (fails : Nat → Bool) (p : Program Name) :
    ∀ s : State Name, s.writer.Consistent → Restores s.writer (exec fails p s) := by
  induction p with
  | done =>
    intro s h
    exact restores_still h rfl false
  | throw =>
    intro s h
    exact restores_still h rfl true
  | seq p q ihp ihq =>
    intro s h
    simp only [exec]
    split
    · exact ihp s h
    · exact restores_append (ihp s h) fun hw => hw ▸ ihq _ (hw ▸ h)
  | tryExcept p handler ihp ihh =>
    intro s h
    simp only [exec]
    split
    · exact restores_append (ihp s h) fun hw => hw ▸ ihh _ (hw ▸ h)
    · exact ihp s h
  | outputTo name body ih =>
    intro s h
    simp only [exec]
    cases hs : setOutputFilename fails name s with
    | mk s' raised =>
      cases raised with
      | true =>
        exact restores_failed h (setOutputFilename_raised hs).1 (fun _ => rfl) (by simp)
      | false =>
        have hw := setOutputFilename_ok hs
        have hc : s'.writer.Consistent := by
          rw [hw]
          rfl
        have hbody : Restores s'.writer ⟨(exec fails body s').state, (exec fails body s').raised,
            .between s'.writer :: (exec fails body s').events⟩ :=
          restores_append (restores_still hc rfl false) fun _ => ih s' hc
        exact restores_leave h hbody

/-- Contexts restore the file, and the name goes with the file, exactly when
`open` fails only on entering a context without a file. -/
theorem sound_iff (fails : Nat → Bool) (p : Program Name) :
    (exec fails p ⟨Writer.init, 0⟩).Sound ↔ (exec fails p ⟨Writer.init, 0⟩).Harmless :=
  (exec_restores fails p ⟨Writer.init, 0⟩ rfl).1

/-- An experiment runs another one and goes on when that fails. -/
def nested : Program String :=
  experimentRun .done "outer/experiment.log" .done
    (.tryExcept (experimentRun .done "inner/experiment.log" .done .done .done) .done) .done

/-- The inner log file cannot be opened: the outer one is closed, and the
writer still names it. -/
theorem file_lost :
    (exec (fun n => n == 1) nested ⟨Writer.init, 0⟩).raised = false ∧
      .context ⟨some "outer/experiment.log", some "outer/experiment.log"⟩
        ⟨none, some "outer/experiment.log"⟩ ∈ (exec (fun n => n == 1) nested ⟨Writer.init, 0⟩).events ∧
      ¬ (exec (fun n => n == 1) nested ⟨Writer.init, 0⟩).Sound := by
  have hmem : Event.context ⟨some "outer/experiment.log", some "outer/experiment.log"⟩
      ⟨none, some "outer/experiment.log"⟩ ∈ (exec (fun n => n == 1) nested ⟨Writer.init, 0⟩).events := by
    simp [nested, exec, experimentRun, setOutputFilename, leave, Writer.init]
  exact ⟨rfl, hmem, fun h => absurd (h _ hmem) (by simp [Writer.destination])⟩

end Catkit2.L4.LogOutput
