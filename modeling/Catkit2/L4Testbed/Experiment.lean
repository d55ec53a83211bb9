import Catkit2.Core.Cleanup
import Catkit2.L4Testbed.LogOutput
import Mathlib.Logic.Function.Basic

/-!
# Running experiments (catkit2/testbed/experiment.py)

`Experiment.run` puts the experiment on a stack that all experiments share,
makes its output path, sets up the logging if it is the only one, and runs its
three parts with the output in its own log file. The parts may run other
experiments, and everything may raise. Not all of it is covered by the clean-up:
an interrupt of the clean-up itself, or one between a step and the mark by which
the clean-up knows of it, leaves behind what was set up.

An experiment is an object: it is told apart by a name of type `ι`, and the
attributes of one run are still there in the next.

* `exec_leads`: whatever raises where the clean-up covers it, a run of experiments
  puts everything back, as long as no experiment runs inside itself.
* `seen_sound`: code of an experiment runs with one log handler, one forwarder
  and one writer, and the output is in its own file unless opening one fails.
-/
namespace Catkit2.L4.Experiments

open Catkit2.Script

inductive Raised where
  | exception (text : String)
  | keyboardInterrupt

/-- What comes of the operation that is made at this moment: of any that can
raise, of one that no clean-up covers, and of opening a log file. -/
structure Moment where
  result : Except Raised Unit
  uncovered : Except Raised Unit
  opened : Except Raised Unit
  date_and_time : String

variable {ι Path : Type}

/-! ## The state -/

/-- The attributes that `run` reads and sets. `output_path` is missing before the
first run. -/
structure Experiment (Path : Type) where
  name : String
  is_base_experiment : Option Bool
  child_experiment_id : Nat
  output_path : Option Path
  log_writer : Option Nat
  log_terminal : Option Nat

/-- mirrors catkit2/testbed/experiment.py:17-31 -/
def Experiment.init (name : String) (is_base_experiment : Option Bool) : Experiment Path :=
  ⟨name, is_base_experiment, 0, none, none, none⟩

/-- The local variables of a call of `run`. -/
structure Locals where
  started_experiment : Bool
  log_handler : Option Nat
  log_forwarder : Option Nat

/-- What a piece of an experiment's code finds. -/
structure Seen (ι Path : Type) where
  running_experiments : List ι
  handlers : List Nat
  forwarders : List Nat
  observers : List Nat
  output_path : Option Path
  destination : Option Path

/-- An experiment that was numbered below its parent. -/
structure Numbered (ι Path : Type) where
  parent : ι
  parent_path : Path
  experiment_id : Nat
  output_path : Path

/-- `running_experiments` and `frames` have the innermost first. `handlers` are
those of the root logger, `observers` the log writers and terminals whose threads
run. `seen` and `numbered` record what happened. -/
structure World (ι Path : Type) where
  experiments : ι → Experiment Path
  running_experiments : List ι
  frames : List Locals
  handlers : List Nat
  forwarders : List Nat
  observers : List Nat
  writer : Nat → LogOutput.Writer Path
  next : Nat
  seen : List (Seen ι Path)
  numbered : List (Numbered ι Path)

/-- The path templates of the configuration: filled in with the date and time, the
name and the id, and joined to a path. -/
structure Templates (Path : Type) where
  base_data_path : Path
  base_experiment_path : Path → String → String → Nat → Path
  sub_experiment_path : Path → String → String → Nat → Path
  experiment_log : Path → Path

abbrev Run (ι Path α : Type) := Script Moment (World ι Path) Raised α

/-- An operation that may raise. -/
def attempt : Run ι Path Unit := ask Moment.result

/-- An operation, or an interrupt, that no clean-up covers. -/
def uncovered : Run ι Path Unit := ask Moment.uncovered

section Run

variable [DecidableEq ι]

namespace World

/-- Nothing has run. -/
def init (experiments : ι → Experiment Path) : World ι Path :=
  ⟨experiments, [], [], [], [], [], fun _ => .init, 0, [], []⟩

def setExperiment (w : World ι Path) (self : ι) (f : Experiment Path → Experiment Path) : World ι Path :=
  { w with experiments := Function.update w.experiments self (f (w.experiments self)) }

def setLocals (w : World ι Path) (f : Locals → Locals) : World ι Path :=
  match w.frames with
  | [] => w
  | locals :: frames => { w with frames := f locals :: frames }

/-- `_running_experiments[0]` -/
def base (w : World ι Path) : Option ι := w.running_experiments.getLast?

/-- The log writer of the base experiment. -/
def baseWriter (w : World ι Path) : Option Nat := w.base.bind fun b => (w.experiments b).log_writer

/-- Where the log messages of the experiments go. -/
def destination (w : World ι Path) : Option Path := w.baseWriter.bind fun i => (w.writer i).destination

def setWriter (w : World ι Path) (i : Nat) (writer : LogOutput.Writer Path) : World ι Path :=
  { w with writer := Function.update w.writer i writer }

def look (w : World ι Path) : Seen ι Path where
  running_experiments := w.running_experiments
  handlers := w.handlers
  forwarders := w.forwarders
  observers := w.observers
  output_path := w.running_experiments.head?.bind fun e => (w.experiments e).output_path
  destination := w.destination

/-- The locals of `run`, and the attributes it sets first.
mirrors catkit2/testbed/experiment.py:34-39 -/
def call (w : World ι Path) (self : ι) : World ι Path :=
  { w.setExperiment self fun e => { e with log_writer := none, log_terminal := none } with
    frames := ⟨false, none, none⟩ :: w.frames }

/-- The locals go when `run` returns or raises. -/
def ret (w : World ι Path) : World ι Path := { w with frames := w.frames.tail }

def append (w : World ι Path) (self : ι) : World ι Path :=
  { w with running_experiments := self :: w.running_experiments }

def mark (w : World ι Path) : World ι Path := w.setLocals fun l => { l with started_experiment := true }

/-- mirrors catkit2/testbed/experiment.py:47-48 -/
def decideBase (w : World ι Path) (self : ι) : World ι Path :=
  w.setExperiment self fun e => { e with
    is_base_experiment := some (e.is_base_experiment.getD (w.running_experiments.length == 1)) }

def addHandler (w : World ι Path) : World ι Path :=
  { w.setLocals fun l => { l with log_handler := some w.next } with
    handlers := w.next :: w.handlers, next := w.next + 1 }

def addForwarder (w : World ι Path) : World ι Path :=
  { w.setLocals fun l => { l with log_forwarder := some w.next } with
    forwarders := w.next :: w.forwarders, next := w.next + 1 }

def newWriter (w : World ι Path) (self : ι) : World ι Path :=
  { w.setExperiment self fun e => { e with log_writer := some w.next } with
    writer := Function.update w.writer w.next .init
    next := w.next + 1 }

def startWriter (w : World ι Path) (self : ι) : World ι Path :=
  { w with observers := (w.experiments self).log_writer.toList ++ w.observers }

def newTerminal (w : World ι Path) (self : ι) : World ι Path :=
  { w.setExperiment self fun e => { e with log_terminal := some w.next } with next := w.next + 1 }

def startTerminal (w : World ι Path) (self : ι) : World ι Path :=
  { w with observers := (w.experiments self).log_terminal.toList ++ w.observers }

def stopTerminal (w : World ι Path) (self : ι) : World ι Path :=
  { w with observers := w.observers.diff (w.experiments self).log_terminal.toList }

def stopWriter (w : World ι Path) (self : ι) : World ι Path :=
  { w with observers := w.observers.diff (w.experiments self).log_writer.toList }

def dropForwarder (w : World ι Path) : World ι Path :=
  { w with forwarders := w.forwarders.diff (w.frames.head?.bind Locals.log_forwarder).toList }

def removeHandler (w : World ι Path) : World ι Path :=
  { w with handlers := w.handlers.diff (w.frames.head?.bind Locals.log_handler).toList }

def pop (w : World ι Path) : World ι Path :=
  if w.frames.head?.any Locals.started_experiment then { w with running_experiments := w.running_experiments.tail }
  else w

end World

/-- The parent counts its children. mirrors catkit2/testbed/experiment.py:155-180 -/
def numberChild (t : Templates Path) (self parent : ι) (base_data_path : Path) : Run ι Path Path := do
  let w ← get
  let experiment_id := (w.experiments parent).child_experiment_id
  modify fun w => w.setExperiment parent fun e => { e with child_experiment_id := e.child_experiment_id + 1 }
  let date_and_time ← read Moment.date_and_time
  let output_path := t.sub_experiment_path base_data_path date_and_time (w.experiments self).name experiment_id
  modify fun w => { w with numbered := w.numbered ++ [⟨parent, base_data_path, experiment_id, output_path⟩] }
  return output_path

/-- mirrors catkit2/testbed/experiment.py:137-180 -/
def computeOutputPath (t : Templates Path) (self : ι) : Run ι Path Path := do
  let w ← get
  match w.running_experiments with
  | _ :: parent :: _ =>
    match (w.experiments parent).output_path with
    | none => throw (.exception "'Experiment' object has no attribute 'output_path'")
    | some base_data_path =>
      attempt
      let output_path ← numberChild t self parent base_data_path
      attempt
      return output_path
  | _ =>
    attempt
    let date_and_time ← read Moment.date_and_time
    attempt
    return t.base_experiment_path t.base_data_path date_and_time (w.experiments self).name 0

/-- The output path is made, and the metadata and the configuration are written to it.
mirrors catkit2/testbed/experiment.py:50-60 -/
def prepare (t : Templates Path) (self : ι) : Run ι Path Path := do
  let output_path ← computeOutputPath t self
  modify fun w => w.setExperiment self fun e => { e with output_path := some output_path }
  attempt
  attempt
  attempt
  return output_path

/-- mirrors catkit2/testbed/experiment.py:63-84 -/
def setUpLogging (self : ι) : Run ι Path Unit := do
  let w ← get
  if w.running_experiments.length = 1 then
    attempt
    modify World.addHandler
    attempt
    modify World.addForwarder
    attempt
    attempt
    modify fun w => w.newWriter self
    -- a thread that is made and not started cannot be joined
    uncovered
    modify fun w => w.startWriter self
    attempt
    modify fun w => w.newTerminal self
    uncovered
    modify fun w => w.startTerminal self

/-- mirrors catkit2/testbed/logging.py:112-123 -/
def setOutputFilename (i : Nat) (output_filename : Option Path) : Run ι Path Unit :=
  act fun m w =>
    match m.opened with
    | .ok () =>
      let (s, _) := LogOutput.setOutputFilename (fun _ => false) output_filename ⟨w.writer i, 0⟩
      (.ok (), w.setWriter i s.writer)
    | .error e =>
      let (s, raised) := LogOutput.setOutputFilename (fun _ => true) output_filename ⟨w.writer i, 0⟩
      (if raised then .error e else .ok (), w.setWriter i s.writer)

/-- mirrors catkit2/testbed/logging.py:96-106 -/
def outputTo (log_writer : Option Nat) (output_filename : Path) (body : Run ι Path Unit) : Run ι Path Unit :=
  match log_writer with
  | none => throw (.exception "'NoneType' object has no attribute 'output_to'")
  | some i => do
    let w ← get
    setOutputFilename i (some output_filename)
    uncovered
    tryFinally body (setOutputFilename i (w.writer i).output_filename)

/-- An exception in a part is logged, and raised again. -/
def part (p : Run ι Path Unit) : Run ι Path Unit :=
  tryExcept p fun e => do
    match e with
    | .exception _ =>
      attempt
      attempt
    | .keyboardInterrupt => pure ()
    throw e

/-- mirrors catkit2/testbed/experiment.py:119-135 -/
def tearDown (self : ι) : Run ι Path Unit := do
  uncovered
  modify fun w => w.stopTerminal self
  uncovered
  modify fun w => w.stopWriter self
  uncovered
  modify World.dropForwarder
  uncovered
  modify World.removeHandler
  uncovered
  modify World.pop

/-- mirrors catkit2/testbed/experiment.py:33-135 -/
def run (t : Templates Path) (self : ι) (pre_experiment experiment post_experiment : Run ι Path Unit) :
    Run ι Path Unit := do
  modify fun w => w.call self
  tryFinally
    (do
      attempt
      tryFinally
        (do
          modify fun w => w.append self
          uncovered
          modify World.mark
          attempt
          modify fun w => w.decideBase self
          let output_path ← prepare t self
          setUpLogging self
          let w ← get
          attempt
          attempt
          outputTo w.baseWriter (t.experiment_log output_path) do
            part pre_experiment
            part experiment
            part post_experiment)
        (tearDown self))
    (modify World.ret)

/-! ## Programs -/

/-- Code that runs experiments. A `piece` is any code that does not. -/
inductive Code (ι : Type) where
  | piece
  | seq (p q : Code ι)
  | tryExcept (p handler : Code ι)
  | run (self : ι) (pre_experiment experiment post_experiment : Code ι)

def exec (t : Templates Path) : Code ι → Run ι Path Unit
  | .piece => do
    modify fun w => { w with seen := w.seen ++ [w.look] }
    attempt
  | .seq p q => do
    exec t p
    exec t q
  | .tryExcept p handler => Script.tryExcept (exec t p) fun _ => exec t handler
  | .run self pre_experiment experiment post_experiment =>
    run t self (exec t pre_experiment) (exec t experiment) (exec t post_experiment)

/-- No experiment runs inside itself. -/
def Code.NotNested : List ι → Code ι → Prop
  | _, .piece => True
  | outer, .seq p q => p.NotNested outer ∧ q.NotNested outer
  | outer, .tryExcept p handler => p.NotNested outer ∧ handler.NotNested outer
  | outer, .run self pre_experiment experiment post_experiment =>
    self ∉ outer ∧ pre_experiment.NotNested (self :: outer) ∧ experiment.NotNested (self :: outer) ∧
      post_experiment.NotNested (self :: outer)

end Run

/-! ## Before and after -/

/-- Nothing raises where no clean-up covers it. -/
def Covered (env : Nat → Moment) : Prop := ∀ n, (env n).uncovered = .ok ()

/-- Opening a log file never fails. -/
def AlwaysOpens (env : Nat → Moment) : Prop := ∀ n, (env n).opened = .ok ()

/-- What is there outside of all experiments. -/
structure Ground where
  handlers : List Nat
  forwarders : List Nat
  observers : List Nat

/-- Code outside of all experiments finds what was there. Code of an experiment
finds one more handler and one more forwarder, a terminal and a writer, and, if
log files `open`, its output is in the log file of the innermost experiment. -/
def Seen.Sound (t : Templates Path) (g : Ground) (opens : Prop) (s : Seen ι Path) : Prop :=
  match s.running_experiments with
  | [] => s.handlers = g.handlers ∧ s.forwarders = g.forwarders ∧ s.observers = g.observers ∧ s.destination = none
  | _ :: _ =>
    (∃ handler, s.handlers = handler :: g.handlers) ∧ (∃ forwarder, s.forwarders = forwarder :: g.forwarders) ∧
      (∃ terminal writer, s.observers = terminal :: writer :: g.observers) ∧
        ∃ path, s.output_path = some path ∧ (opens → s.destination = some (t.experiment_log path))

namespace World

/-- The attributes of an experiment that the logging of others uses. -/
def logging (w : World ι Path) (e : ι) : Option Nat × Option Nat × Option Path :=
  ((w.experiments e).log_writer, (w.experiments e).log_terminal, (w.experiments e).output_path)

/-- Nothing differs but the numbers of children. -/
structure Quiet (w w' : World ι Path) : Prop where
  running_experiments : w'.running_experiments = w.running_experiments
  frames : w'.frames = w.frames
  handlers : w'.handlers = w.handlers
  forwarders : w'.forwarders = w.forwarders
  observers : w'.observers = w.observers
  writer : w'.writer = w.writer
  seen : w'.seen = w.seen
  logging : ∀ e, w'.logging e = w.logging e

/-- Everything that a run sets up is as before. -/
structure Back (env : Nat → Moment) (w w' : World ι Path) : Prop where
  running_experiments : w'.running_experiments = w.running_experiments
  frames : w'.frames = w.frames
  handlers : w'.handlers = w.handlers
  forwarders : w'.forwarders = w.forwarders
  observers : w'.observers = w.observers
  logging : ∀ e ∈ w.running_experiments, w'.logging e = w.logging e
  writer : AlwaysOpens env → ∀ i, w.baseWriter = some i → (w.writer i).Consistent → w'.writer i = w.writer i

/-- Where code of the user may run. -/
structure Settled (env : Nat → Moment) (t : Templates Path) (g : Ground) (w : World ι Path) : Prop where
  sound : w.look.Sound t g (AlwaysOpens env)
  consistent : AlwaysOpens env → ∀ i, w.baseWriter = some i → (w.writer i).Consistent

/-- What was found in between is sound. -/
def Shows (env : Nat → Moment) (t : Templates Path) (g : Ground) (w w' : World ι Path) : Prop :=
  ∀ s ∈ w'.seen, s ∈ w.seen ∨ s.Sound t g (AlwaysOpens env)

/-- What the induction carries. -/
structure Step (env : Nat → Moment) (t : Templates Path) (w w' : World ι Path) : Prop where
  back : Back env w w'
  shows : ∀ g, Settled env t g w → Shows env t g w w'

/-- In a run of `inner` that began at `w`. -/
structure Inside (env : Nat → Moment) (t : Templates Path) (w : World ι Path) (inner : ι)
    (handler forwarder writer terminal : Option Nat) (w' : World ι Path) : Prop where
  running_experiments : w'.running_experiments = inner :: w.running_experiments
  frames : w'.frames = ⟨true, handler, forwarder⟩ :: w.frames
  handlers : w'.handlers = handler.toList ++ w.handlers
  forwarders : w'.forwarders = forwarder.toList ++ w.forwarders
  observers : w'.observers = terminal.toList ++ (writer.toList ++ w.observers)
  log_writer : (w'.experiments inner).log_writer = writer
  log_terminal : (w'.experiments inner).log_terminal = terminal
  logging : ∀ e ∈ w.running_experiments, w'.logging e = w.logging e
  writer : AlwaysOpens env → ∀ i, w.baseWriter = some i → (w.writer i).Consistent → w'.writer i = w.writer i
  shows : ∀ g, Settled env t g w → Shows env t g w w'

variable {env : Nat → Moment} {t : Templates Path} {g : Ground} {w w' w'' : World ι Path} {self e : ι}
  {handler forwarder writer terminal : Option Nat}

theorem logging_congr (h : w'.experiments e = w.experiments e) : w'.logging e = w.logging e := by
  unfold logging
  rw [h]

section Objects

variable [DecidableEq ι]

theorem setExperiment_self (f : Experiment Path → Experiment Path) :
    (w.setExperiment self f).experiments self = f (w.experiments self) :=
  Function.update_self ..

theorem setExperiment_of_ne (f : Experiment Path → Experiment Path) (h : e ≠ self) :
    (w.setExperiment self f).experiments e = w.experiments e :=
  Function.update_of_ne h ..

theorem logging_setExperiment_of_ne (f : Experiment Path → Experiment Path) (h : e ≠ self) :
    (w.setExperiment self f).logging e = w.logging e :=
  logging_congr (setExperiment_of_ne f h)

/-- A change of an experiment that leaves its logging alone. -/
theorem quiet_setExperiment {f : Experiment Path → Experiment Path}
    (h : (f (w.experiments self)).log_writer = (w.experiments self).log_writer)
    (h' : (f (w.experiments self)).log_terminal = (w.experiments self).log_terminal)
    (h'' : (f (w.experiments self)).output_path = (w.experiments self).output_path) :
    Quiet w (w.setExperiment self f) := by
  refine ⟨rfl, rfl, rfl, rfl, rfl, rfl, rfl, fun e => ?_⟩
  by_cases he : e = self
  · unfold logging
    rw [he, setExperiment_self, h, h', h'']
  · exact logging_setExperiment_of_ne f he

end Objects

theorem mem_running_of_base (h : w.base = some e) : e ∈ w.running_experiments :=
  List.mem_of_getLast? h

/-- The base writer hangs on the stack and on the attributes of those in it. -/
theorem baseWriter_congr (hr : w'.running_experiments = w.running_experiments)
    (hl : ∀ e ∈ w.running_experiments, w'.logging e = w.logging e) : w'.baseWriter = w.baseWriter := by
  have hb : w'.base = w.base := by rw [base, base, hr]
  unfold baseWriter
  rw [hb]
  cases h : w.base with
  | none => rfl
  | some b => exact congrArg Prod.fst (hl b (mem_running_of_base h))

theorem Quiet.refl : Quiet w w := ⟨rfl, rfl, rfl, rfl, rfl, rfl, rfl, fun _ => rfl⟩

theorem Back.refl : Back env w w := ⟨rfl, rfl, rfl, rfl, rfl, fun _ _ => rfl, fun _ _ _ _ => rfl⟩

theorem Back.baseWriter_eq (h : Back env w w') : w'.baseWriter = w.baseWriter :=
  baseWriter_congr h.running_experiments h.logging

theorem Back.trans (h : Back env w w') (h' : Back env w' w'') : Back env w w'' where
  running_experiments := h'.running_experiments.trans h.running_experiments
  frames := h'.frames.trans h.frames
  handlers := h'.handlers.trans h.handlers
  forwarders := h'.forwarders.trans h.forwarders
  observers := h'.observers.trans h.observers
  logging e he := (h'.logging e (h.running_experiments ▸ he)).trans (h.logging e he)
  writer ho i hi hc := by
    have hw := h.writer ho i hi hc
    exact (h'.writer ho i (h.baseWriter_eq ▸ hi) (hw ▸ hc)).trans hw

theorem Back.output_path_eq (h : Back env w w') : w'.look.output_path = w.look.output_path := by
  show (w'.running_experiments.head?.bind fun e => (w'.experiments e).output_path) =
    w.running_experiments.head?.bind fun e => (w.experiments e).output_path
  rw [h.running_experiments]
  cases hr : w.running_experiments with
  | nil => rfl
  | cons e rest =>
    have he : e ∈ w.running_experiments := by simp [hr]
    exact congrArg (fun l => l.2.2) (h.logging e he)

theorem Back.destination_eq (h : Back env w w') (ho : AlwaysOpens env)
    (hc : ∀ i, w.baseWriter = some i → (w.writer i).Consistent) : w'.destination = w.destination := by
  unfold destination
  rw [h.baseWriter_eq]
  cases hi : w.baseWriter with
  | none => rfl
  | some i =>
    show (w'.writer i).destination = (w.writer i).destination
    rw [h.writer ho i hi (hc i hi)]

/-- Code of the user may run again where it could. -/
theorem Settled.back (hs : Settled env t g w) (h : Back env w w') : Settled env t g w' := by
  constructor
  · have hp := h.output_path_eq
    have hd := h.destination_eq
    have hsound := hs.sound
    unfold Seen.Sound at hsound ⊢
    rw [show w'.look.running_experiments = w.look.running_experiments from h.running_experiments]
    split <;> rename_i hr <;> rw [hr] at hsound
    · obtain ⟨hh, hf, hob, hdest⟩ := hsound
      refine ⟨h.handlers.trans hh, h.forwarders.trans hf, h.observers.trans hob, ?_⟩
      have hb : w'.base = none := by
        unfold base
        rw [h.running_experiments, show w.running_experiments = [] from hr]
        rfl
      show w'.destination = none
      unfold destination baseWriter
      rw [hb]
      rfl
    · obtain ⟨⟨a, ha⟩, ⟨f, hf⟩, ⟨tm, wr, hob⟩, path, hpath, hdest⟩ := hsound
      exact ⟨⟨a, h.handlers.trans ha⟩, ⟨f, h.forwarders.trans hf⟩, ⟨tm, wr, h.observers.trans hob⟩, path,
        hp.trans hpath, fun ho => (hd ho (hs.consistent ho)).trans (hdest ho)⟩
  · intro ho i hi
    rw [h.baseWriter_eq] at hi
    have hc := hs.consistent ho i hi
    rw [h.writer ho i hi hc]
    exact hc

theorem Shows.trans (h : Shows env t g w w') (h' : Shows env t g w' w'') : Shows env t g w w'' := by
  intro s hs
  cases h' s hs with
  | inl hs => exact h s hs
  | inr hs => exact .inr hs

theorem Shows.of_seen (h : w'.seen = w.seen) : Shows env t g w w' := by
  intro s hs
  exact .inl (h ▸ hs)

theorem Step.trans (h : Step env t w w') (h' : Step env t w' w'') : Step env t w w'' :=
  ⟨h.back.trans h'.back, fun g hs => (h.shows g hs).trans (h'.shows g (hs.back h.back))⟩

/-! ## In a run -/

theorem Inside.quiet (h : Inside env t w self handler forwarder writer terminal w') (hq : Quiet w' w'') :
    Inside env t w self handler forwarder writer terminal w'' where
  running_experiments := hq.running_experiments.trans h.running_experiments
  frames := hq.frames.trans h.frames
  handlers := hq.handlers.trans h.handlers
  forwarders := hq.forwarders.trans h.forwarders
  observers := hq.observers.trans h.observers
  log_writer := (congrArg Prod.fst (hq.logging self)).trans h.log_writer
  log_terminal := (congrArg (fun l => l.2.1) (hq.logging self)).trans h.log_terminal
  logging e he := (hq.logging e).trans (h.logging e he)
  writer ho i hi hc := (congrFun hq.writer i).trans (h.writer ho i hi hc)
  shows g hs := (h.shows g hs).trans (.of_seen hq.seen)

/-- The base of an inner run is that of the outer one. -/
theorem Inside.baseWriter_of_ne_nil (h : Inside env t w self handler forwarder writer terminal w')
    (hr : w.running_experiments ≠ []) : w'.baseWriter = w.baseWriter := by
  have hb : w'.base = w.base := by
    unfold base
    rw [h.running_experiments, List.getLast?_cons_of_ne_nil hr]
  unfold baseWriter
  rw [hb]
  cases he : w.base with
  | none => rfl
  | some b => exact congrArg Prod.fst (h.logging b (mem_running_of_base he))

theorem baseWriter_of_nil (hr : w.running_experiments = []) : w.baseWriter = none := by
  unfold baseWriter base
  rw [hr]
  rfl

/-- A run goes on after what puts everything back. -/
theorem Inside.back (h : Inside env t w self handler forwarder writer terminal w') (hb : Back env w' w'')
    (hs : ∀ g, Settled env t g w → Shows env t g w' w'') :
    Inside env t w self handler forwarder writer terminal w'' where
  running_experiments := hb.running_experiments.trans h.running_experiments
  frames := hb.frames.trans h.frames
  handlers := hb.handlers.trans h.handlers
  forwarders := hb.forwarders.trans h.forwarders
  observers := hb.observers.trans h.observers
  log_writer := by
    have hself : self ∈ w'.running_experiments := by simp [h.running_experiments]
    exact (congrArg Prod.fst (hb.logging self hself)).trans h.log_writer
  log_terminal := by
    have hself : self ∈ w'.running_experiments := by simp [h.running_experiments]
    exact (congrArg (fun l => l.2.1) (hb.logging self hself)).trans h.log_terminal
  logging e he := by
    have he' : e ∈ w'.running_experiments := by simp [h.running_experiments, he]
    exact (hb.logging e he').trans (h.logging e he)
  writer ho i hi hc := by
    by_cases hr : w.running_experiments = []
    · rw [baseWriter_of_nil hr] at hi
      cases hi
    · have hw := h.writer ho i hi hc
      have hi' : w'.baseWriter = some i := (h.baseWriter_of_ne_nil hr).trans hi
      exact (hb.writer ho i hi' (hw ▸ hc)).trans hw
  shows g hg := (h.shows g hg).trans (hs g hg)

/-- The clean-up takes away what the run added, however far it got. -/
theorem Inside.tearDown (h : Inside env t w self handler forwarder writer terminal w') :
    Step env t w (((w'.stopTerminal self).stopWriter self).dropForwarder.removeHandler.pop).ret := by
  have ht : (((w'.stopTerminal self).stopWriter self).dropForwarder.removeHandler.pop).ret = { w' with
      observers := w.observers, forwarders := w.forwarders, handlers := w.handlers
      running_experiments := w.running_experiments, frames := w.frames } := by
    unfold ret pop removeHandler dropForwarder stopWriter stopTerminal
    simp only [h.frames, h.log_writer, h.log_terminal, h.observers, h.handlers, h.forwarders, h.running_experiments]
    cases handler <;> cases forwarder <;> cases writer <;> cases terminal <;> simp
  rw [ht]
  exact ⟨⟨rfl, rfl, rfl, rfl, rfl, h.logging, h.writer⟩, h.shows⟩

/-- Somewhere in a run. -/
def Midway (env : Nat → Moment) (t : Templates Path) (w : World ι Path) (inner : ι) (w' : World ι Path) : Prop :=
  ∃ handler forwarder writer terminal, Inside env t w inner handler forwarder writer terminal w'

/-- In a run of `inner` whose output goes below `path`. -/
def Prepared (env : Nat → Moment) (t : Templates Path) (w : World ι Path) (inner : ι)
    (handler forwarder writer terminal : Option Nat) (path : Path) (w' : World ι Path) : Prop :=
  Inside env t w inner handler forwarder writer terminal w' ∧ (w'.experiments inner).output_path = some path

/-- Ready for the parts: an outermost run has set up all of the logging, an inner one
none. -/
def Ready (env : Nat → Moment) (t : Templates Path) (w : World ι Path) (inner : ι) (path : Path)
    (w' : World ι Path) : Prop :=
  (w.running_experiments = [] ∧ ∃ a f i j, Prepared env t w inner (some a) (some f) (some i) (some j) path w') ∨
    (w.running_experiments ≠ [] ∧ Prepared env t w inner none none none none path w')

variable {path : Path}

theorem Inside.midway (h : Inside env t w self handler forwarder writer terminal w') : Midway env t w self w' :=
  ⟨handler, forwarder, writer, terminal, h⟩

theorem Ready.midway (h : Ready env t w self path w') : Midway env t w self w' := by
  obtain ⟨-, a, f, i, j, h⟩ | ⟨-, h⟩ := h
  · exact h.1.midway
  · exact h.1.midway

/-- Code of the user may run in a run that is ready, with its own file open. -/
theorem Ready.settled {i : Nat} (h : Ready env t w self path w') (hg : Settled env t g w)
    (hi : w'.baseWriter = some i) :
    Settled env t g (w'.setWriter i ⟨some (t.experiment_log path), some (t.experiment_log path)⟩) := by
  have hlists : (∃ a, w'.handlers = a :: g.handlers) ∧ (∃ f, w'.forwarders = f :: g.forwarders) ∧
      ∃ tm wr, w'.observers = tm :: wr :: g.observers := by
    have hs := hg.sound
    unfold Seen.Sound at hs
    obtain ⟨hr, a, f, i, j, h, -⟩ | ⟨hr, h, -⟩ := h
    · rw [show w.look.running_experiments = [] from hr] at hs
      obtain ⟨hh, hf, hob, -⟩ := hs
      refine ⟨⟨a, ?_⟩, ⟨f, ?_⟩, j, i, ?_⟩
      · exact h.handlers.trans (congrArg (a :: ·) hh)
      · exact h.forwarders.trans (congrArg (f :: ·) hf)
      · exact h.observers.trans (congrArg (j :: i :: ·) hob)
    · obtain ⟨e, rest, hr⟩ := List.exists_cons_of_ne_nil hr
      rw [show w.look.running_experiments = e :: rest from hr] at hs
      obtain ⟨⟨a, ha⟩, ⟨f, hf⟩, ⟨tm, wr, hob⟩, -⟩ := hs
      exact ⟨⟨a, h.handlers.trans ha⟩, ⟨f, h.forwarders.trans hf⟩, tm, wr, h.observers.trans hob⟩
  have hrun : w'.running_experiments = self :: w.running_experiments ∧
      (w'.experiments self).output_path = some path := by
    obtain ⟨-, a, f, i, j, h, hpath⟩ | ⟨-, h, hpath⟩ := h
    · exact ⟨h.running_experiments, hpath⟩
    · exact ⟨h.running_experiments, hpath⟩
  have hi' : (w'.setWriter i ⟨some (t.experiment_log path), some (t.experiment_log path)⟩).baseWriter = some i := hi
  constructor
  · unfold Seen.Sound
    rw [show (w'.setWriter i _).look.running_experiments = self :: w.running_experiments from hrun.1]
    refine ⟨hlists.1, hlists.2.1, hlists.2.2, path, ?_, fun _ => ?_⟩
    · show (w'.running_experiments.head?.bind fun e => (w'.experiments e).output_path) = some path
      rw [hrun.1]
      exact hrun.2
    · show (w'.setWriter i _).destination = _
      unfold destination
      rw [hi']
      simp [setWriter, LogOutput.Writer.destination]
  · intro _ j hj
    rw [hi'] at hj
    cases hj
    simp [setWriter, LogOutput.Writer.Consistent]

theorem Prepared.addHandler (h : Prepared env t w self none forwarder writer terminal path w') :
    Prepared env t w self (some w'.next) forwarder writer terminal path w'.addHandler := by
  unfold World.addHandler setLocals
  rw [h.1.frames]
  exact ⟨{ h.1 with frames := rfl, handlers := congrArg (w'.next :: ·) h.1.handlers }, h.2⟩

theorem Prepared.addForwarder (h : Prepared env t w self handler none writer terminal path w') :
    Prepared env t w self handler (some w'.next) writer terminal path w'.addForwarder := by
  unfold World.addForwarder setLocals
  rw [h.1.frames]
  exact ⟨{ h.1 with frames := rfl, forwarders := congrArg (w'.next :: ·) h.1.forwarders }, h.2⟩

section Objects

variable [DecidableEq ι]

/-- The log writer of an outermost run. -/
theorem Prepared.addWriter (h : Prepared env t w self handler forwarder none none path w')
    (hr : w.running_experiments = []) :
    Prepared env t w self handler forwarder (some w'.next) none path ((w'.newWriter self).startWriter self) := by
  unfold World.newWriter World.startWriter
  refine ⟨{ h.1 with observers := ?_, log_writer := ?_, log_terminal := ?_, logging := ?_, writer := ?_ }, ?_⟩
  · simp only [setExperiment, Function.update_self]
    exact congrArg (w'.next :: ·) h.1.observers
  · simp only [setExperiment, Function.update_self]
  · simp only [setExperiment, Function.update_self]
    exact h.1.log_terminal
  · simp [hr]
  · intro _ i hi
    rw [baseWriter_of_nil hr] at hi
    cases hi
  · simp only [setExperiment, Function.update_self]
    exact h.2

theorem Prepared.addTerminal (h : Prepared env t w self handler forwarder writer none path w')
    (hr : w.running_experiments = []) :
    Prepared env t w self handler forwarder writer (some w'.next) path ((w'.newTerminal self).startTerminal self) := by
  unfold World.newTerminal World.startTerminal
  refine ⟨{ h.1 with observers := ?_, log_writer := ?_, log_terminal := ?_, logging := ?_ }, ?_⟩
  · simp only [setExperiment, Function.update_self]
    exact congrArg (w'.next :: ·) h.1.observers
  · simp only [setExperiment, Function.update_self]
    exact h.1.log_writer
  · simp only [setExperiment, Function.update_self]
  · simp [hr]
  · simp only [setExperiment, Function.update_self]
    exact h.2

theorem call_self : (w.call self).experiments self =
    { w.experiments self with log_writer := none, log_terminal := none } :=
  Function.update_self ..

theorem logging_call_of_ne (h : e ≠ self) : (w.call self).logging e = w.logging e :=
  logging_congr (Function.update_of_ne h ..)

/-- Only the attributes of an experiment that does not run differ. -/
theorem step_call_ret (h : self ∉ w.running_experiments) : Step env t w (w.call self).ret := by
  have hne : ∀ e ∈ w.running_experiments, e ≠ self := fun e he heq => h (heq ▸ he)
  exact ⟨⟨rfl, rfl, rfl, rfl, rfl, fun e he => logging_call_of_ne (hne e he), fun _ _ _ _ => rfl⟩,
    fun _ _ => .of_seen rfl⟩

/-- The experiment is on the stack, and the clean-up knows. -/
theorem inside_mark (h : self ∉ w.running_experiments) :
    Inside env t w self none none none none ((w.call self).append self).mark := by
  have hne : ∀ e ∈ w.running_experiments, e ≠ self := fun e he heq => h (heq ▸ he)
  refine ⟨rfl, rfl, rfl, rfl, rfl, ?_, ?_, fun e he => ?_, fun _ _ _ _ => rfl, fun _ _ => .of_seen rfl⟩
  · exact congrArg Experiment.log_writer call_self
  · exact congrArg Experiment.log_terminal call_self
  · exact logging_call_of_ne (hne e he)

theorem quiet_count (parent : ι) :
    Quiet w (w.setExperiment parent fun e => { e with child_experiment_id := e.child_experiment_id + 1 }) :=
  quiet_setExperiment rfl rfl rfl

/-- The output path is set, and that of the outer experiments is not. -/
theorem Inside.setOutputPath (h : Inside env t w self handler forwarder writer terminal w')
    (hself : self ∉ w.running_experiments) :
    Prepared env t w self handler forwarder writer terminal path
      (w'.setExperiment self fun e => { e with output_path := some path }) := by
  have hne : ∀ e ∈ w.running_experiments, e ≠ self := fun e he heq => hself (heq ▸ he)
  refine ⟨{ h with log_writer := ?_, log_terminal := ?_, logging := fun e he => ?_ }, ?_⟩
  · rw [setExperiment_self]
    exact h.log_writer
  · rw [setExperiment_self]
    exact h.log_terminal
  · rw [logging_setExperiment_of_ne _ (hne e he)]
    exact h.logging e he
  · rw [setExperiment_self]

end Objects

end World

/-! ## The parts of a run -/

section Run

open World

variable {α : Type} {env : Nat → Moment} {t : Templates Path} {w : World ι Path} {self : ι} {path : Path}

/-- An operation that may raise changes nothing itself. -/
theorem attempt_bind {P E : World ι Path → Prop} {x : Run ι Path α} {Q : α → World ι Path → Nat → Prop}
    (h : ∀ w, P w → E w) (hx : Leads env (fun w _ => P w) x Q (fun _ w _ => E w)) :
    Leads env (fun w _ => P w) (attempt >>= fun _ => x) Q (fun _ w _ => E w) :=
  Leads.bind (Leads.ask (fun _ _ _ hw _ => hw) fun _ _ _ hw _ => h _ hw) fun _ => hx

/-- Nor does one that does not. -/
theorem uncovered_bind (hc : Covered env) {P E : World ι Path → Prop} {x : Run ι Path α}
    {Q : α → World ι Path → Nat → Prop} (hx : Leads env (fun w _ => P w) x Q (fun _ w _ => E w)) :
    Leads env (fun w _ => P w) (uncovered >>= fun _ => x) Q (fun _ w _ => E w) := by
  refine Leads.bind (Leads.ask (fun _ _ _ hw _ => hw) fun _ n _ _ he => ?_) fun _ => hx
  rw [hc n] at he
  cases he

theorem setOutputFilename_leads {i : Nat} {output_filename : Option Path} :
    Leads env (fun s _ => s = w) (setOutputFilename i output_filename)
      (fun _ s _ => s = w.setWriter i ⟨output_filename, output_filename⟩)
      (fun _ s _ => ¬ AlwaysOpens env ∧ ∃ writer, s = w.setWriter i writer) := by
  refine Leads.act (fun s n a s' hs h => ?_) fun s n e s' hs h => ?_
  · split at h
    · cases output_filename with
      | none =>
        cases h
        rw [hs]
      | some path =>
        cases h
        rw [hs]
    · unfold LogOutput.setOutputFilename at h
      cases output_filename with
      | none =>
        cases h
        rw [hs]
      | some path => cases h
  · split at h
    · cases h
    · rename_i e' he
      constructor
      · intro ho
        rw [ho n] at he
        cases he
      · rw [← hs]
        cases output_filename <;> cases h
        exact ⟨_, rfl⟩

theorem back_setWriter_of_not {i : Nat} {writer : LogOutput.Writer Path} (h : ¬ AlwaysOpens env) :
    Back env w (w.setWriter i writer) :=
  ⟨rfl, rfl, rfl, rfl, rfl, fun _ _ => rfl, fun ho => absurd ho h⟩

/-- The old name is set again after what put everything back under the new one. -/
theorem back_setWriter {w' : World ι Path} {i : Nat} {file : Option Path} (hi : w.baseWriter = some i)
    (h : Back env (w.setWriter i ⟨file, file⟩) w') :
    Back env w (w'.setWriter i ⟨(w.writer i).output_filename, (w.writer i).output_filename⟩) := by
  refine ⟨h.running_experiments, h.frames, h.handlers, h.forwarders, h.observers, h.logging, fun _ j hj hc => ?_⟩
  rw [hi] at hj
  cases hj
  unfold LogOutput.Writer.Consistent at hc
  simp only [setWriter, Function.update_self]
  rw [← hc]
  cases hw : w.writer i with
  | mk output_file output_filename =>
    rw [hw] at hc
    cases hc
    rfl

/-- The body runs with the output in the new file, and the old name is set again. -/
theorem outputTo_leads (hc : Covered env) {i : Nat} {file : Path} {body : Run ι Path Unit} {p : World ι Path → Prop}
    (hi : w.baseWriter = some i) (hp : ∀ s i writer, p s → p (s.setWriter i writer)) (hw : p w)
    (hb : Leads env (fun s _ => s = w.setWriter i ⟨some file, some file⟩) body
      (fun _ s _ => Back env (w.setWriter i ⟨some file, some file⟩) s ∧ p s)
      (fun _ s _ => Back env (w.setWriter i ⟨some file, some file⟩) s ∧ p s)) :
    Leads env (fun s _ => s = w) (outputTo (some i) file body)
      (fun _ s _ => Back env w s ∧ p s) (fun _ s _ => Back env w s ∧ p s) := by
  have hleave : ∀ v : World ι Path, v = w →
      Leads env (fun s _ => Back env (w.setWriter i ⟨some file, some file⟩) s ∧ p s)
        (setOutputFilename i (v.writer i).output_filename) (fun _ s _ => Back env w s ∧ p s)
        (fun _ s _ => Back env w s ∧ p s) := by
    intro v hv s n hs
    refine Leads.mono (setOutputFilename_leads (w := s)) (fun _ _ h => h) (fun _ s' _ h => ?_) (fun _ s' _ h => ?_) s n rfl
    · rw [h, hv]
      exact ⟨back_setWriter hi hs.1, hp _ _ _ hs.2⟩
    · obtain ⟨ho, writer, h⟩ := h
      rw [h]
      exact ⟨((back_setWriter_of_not ho).trans hs.1).trans (back_setWriter_of_not ho), hp _ _ _ hs.2⟩
  unfold outputTo
  refine Leads.get_bind fun v s n hs => ?_
  obtain ⟨hs, hv⟩ := hs
  refine Leads.bind (Leads.mono setOutputFilename_leads (fun _ _ h => h) (fun _ _ _ h => h) fun _ s' _ h => ?_)
    (fun _ => ?_) s n hs
  · obtain ⟨ho, writer, h⟩ := h
    rw [h]
    exact ⟨back_setWriter_of_not ho, hp _ _ _ hw⟩
  · refine uncovered_bind hc ?_
    exact Leads.tryFinally hb (fun _ => hleave v (hv.trans hs)) fun _ => hleave v (hv.trans hs)

/-- An exception of a part goes on after it was logged. -/
theorem part_leads {p : Run ι Path Unit} {P E : World ι Path → Prop} {Q : Unit → World ι Path → Nat → Prop}
    (h : Leads env (fun s _ => P s) p Q (fun _ s _ => E s)) :
    Leads env (fun s _ => P s) (part p) Q (fun _ s _ => E s) := by
  refine Leads.tryExcept h fun e => ?_
  cases e with
  | exception text =>
    refine attempt_bind (fun _ hs => hs) ?_
    exact attempt_bind (fun _ hs => hs) (Leads.throw fun _ _ hs => hs)
  | keyboardInterrupt => exact Leads.throw fun _ _ hs => hs

/-- One after the other. -/
theorem step_bind {p q : Run ι Path Unit} (hp : Leads env (fun s _ => s = w) p (fun _ s _ => Step env t w s)
    (fun _ s _ => Step env t w s))
    (hq : ∀ v, Step env t w v → Leads env (fun s _ => s = v) q (fun _ s _ => Step env t v s) (fun _ s _ => Step env t v s)) :
    Leads env (fun s _ => s = w) (p >>= fun _ => q) (fun _ s _ => Step env t w s) (fun _ s _ => Step env t w s) := by
  refine Leads.bind hp fun _ s n hs => ?_
  exact (hq s hs s n rfl).mono (fun _ _ _ h => hs.trans h) fun _ _ _ h => hs.trans h

/-- Once the clean-up is through and the locals are gone, everything is put back. -/
theorem tearDown_leads (hc : Covered env) :
    Leads env (fun s _ => Midway env t w self s) (tearDown self) (fun _ s _ => Step env t w s.ret)
      (fun _ s _ => Step env t w s.ret) := by
  intro v n hv
  obtain ⟨_, _, _, _, hv⟩ := hv
  have hdone : ∀ {x : Run ι Path Unit}, Leads env (fun s _ => s = v) x (fun _ s _ => Step env t w s.ret)
      (fun _ s _ => Step env t w s.ret) → Leaves (fun _ s _ => Step env t w s.ret) (fun _ s _ => Step env t w s.ret)
        (x env v n) := fun h => h v n rfl
  unfold tearDown
  refine hdone (uncovered_bind hc ?_)
  refine Leads.modify_bind (R := fun s _ => s = v.stopTerminal self) (fun _ _ hs => hs ▸ rfl) (uncovered_bind hc ?_)
  refine Leads.modify_bind (R := fun s _ => s = (v.stopTerminal self).stopWriter self) (fun _ _ hs => hs ▸ rfl)
    (uncovered_bind hc ?_)
  refine Leads.modify_bind (R := fun s _ => s = ((v.stopTerminal self).stopWriter self).dropForwarder)
    (fun _ _ hs => hs ▸ rfl) (uncovered_bind hc ?_)
  refine Leads.modify_bind (R := fun s _ => s = ((v.stopTerminal self).stopWriter self).dropForwarder.removeHandler)
    (fun _ _ hs => hs ▸ rfl) (uncovered_bind hc ?_)
  exact Leads.modify fun _ _ hs => hs ▸ hv.tearDown

variable [DecidableEq ι]

theorem numberChild_leads {parent : ι} {base_data_path : Path} :
    Leads env (fun s _ => Inside env t w self none none none none s) (numberChild t self parent base_data_path)
      (fun _ s _ => Inside env t w self none none none none s) (fun _ s _ => Midway env t w self s) := by
  intro s n hs
  exact (hs.quiet (quiet_count parent)).quiet ⟨rfl, rfl, rfl, rfl, rfl, rfl, rfl, fun _ => rfl⟩

theorem computeOutputPath_leads :
    Leads env (fun s _ => Inside env t w self none none none none s) (computeOutputPath t self)
      (fun _ s _ => Inside env t w self none none none none s) (fun _ s _ => Midway env t w self s) := by
  unfold computeOutputPath
  refine Leads.get_bind fun v => ?_
  refine Leads.mono ?_ (fun _ _ hs => hs.1) (fun _ _ _ hs => hs) (fun _ _ _ hs => hs)
  split
  · split
    · exact Leads.throw fun s _ hs => hs.midway
    · refine attempt_bind (fun _ hs => hs.midway) ?_
      refine Leads.bind numberChild_leads fun _ => ?_
      exact attempt_bind (fun _ hs => hs.midway) (Leads.pure fun _ _ hs => hs)
  · refine attempt_bind (fun _ hs => hs.midway) ?_
    refine Leads.read_bind (fun _ _ hs => hs) fun date => ?_
    exact attempt_bind (fun _ hs => hs.midway) (Leads.pure fun _ _ hs => hs)

theorem prepare_leads (hself : self ∉ w.running_experiments) :
    Leads env (fun s _ => Inside env t w self none none none none s) (prepare t self)
      (fun path s _ => Prepared env t w self none none none none path s) (fun _ s _ => Midway env t w self s) := by
  unfold prepare
  refine Leads.bind computeOutputPath_leads fun path => ?_
  refine Leads.modify_bind (R := fun s _ => Prepared env t w self none none none none path s)
    (fun s _ hs => hs.setOutputPath hself) ?_
  refine attempt_bind (fun _ hs => hs.1.midway) ?_
  refine attempt_bind (fun _ hs => hs.1.midway) ?_
  exact attempt_bind (fun _ hs => hs.1.midway) (Leads.pure fun _ _ hs => hs)

/-- All of the logging of an outermost run. -/
theorem setUpLogging_leads (hc : Covered env) :
    Leads env (fun s _ => Prepared env t w self none none none none path s) (setUpLogging self)
      (fun _ s _ => Ready env t w self path s) (fun _ s _ => Midway env t w self s) := by
  unfold setUpLogging
  refine Leads.get_bind fun v => ?_
  split
  · rename_i hlen
    intro s n hs
    have hr : w.running_experiments = [] := by
      rw [hs.2, hs.1.1.running_experiments] at hlen
      simpa using hlen
    revert s n
    refine attempt_bind (fun s hs => hs.1.1.midway) ?_
    refine Leads.modify_bind (R := fun s _ => ∃ a, Prepared env t w self (some a) none none none path s)
      (fun s _ hs => ⟨s.next, hs.1.addHandler⟩) ?_
    refine attempt_bind (fun s ⟨a, hs⟩ => hs.1.midway) ?_
    refine Leads.modify_bind (R := fun s _ => ∃ a f, Prepared env t w self (some a) (some f) none none path s)
      (fun s _ ⟨a, hs⟩ => ⟨a, s.next, hs.addForwarder⟩) ?_
    refine attempt_bind (fun s ⟨a, f, hs⟩ => hs.1.midway) ?_
    refine attempt_bind (fun s ⟨a, f, hs⟩ => hs.1.midway) ?_
    refine Leads.modify_bind (R := fun s _ => ∃ v a f, Prepared env t w self (some a) (some f) none none path v ∧
      s = v.newWriter self) (fun s _ ⟨a, f, hs⟩ => ⟨s, a, f, hs, rfl⟩) (uncovered_bind hc ?_)
    refine Leads.modify_bind (R := fun s _ => ∃ a f i, Prepared env t w self (some a) (some f) (some i) none path s)
      (fun s _ ⟨v, a, f, hv, hs⟩ => ⟨a, f, v.next, hs ▸ hv.addWriter hr⟩) ?_
    refine attempt_bind (fun s ⟨a, f, i, hs⟩ => hs.1.midway) ?_
    refine Leads.modify_bind (R := fun s _ => ∃ v a f i, Prepared env t w self (some a) (some f) (some i) none path v ∧
      s = v.newTerminal self) (fun s _ ⟨a, f, i, hs⟩ => ⟨s, a, f, i, hs, rfl⟩) (uncovered_bind hc ?_)
    exact Leads.modify fun s _ ⟨v, a, f, i, hv, hs⟩ => .inl ⟨hr, a, f, i, v.next, hs ▸ hv.addTerminal hr⟩
  · rename_i hlen
    refine Leads.pure fun s _ hs => .inr ⟨fun hr => hlen ?_, hs.1⟩
    rw [hs.2, hs.1.1.running_experiments, hr]
    rfl

/-- However the parts of a run end, everything is put back. -/
theorem run_leads (hc : Covered env) {pre_experiment experiment post_experiment : Run ι Path Unit}
    (hself : self ∉ w.running_experiments)
    (hparts : ∀ v : World ι Path, v.running_experiments = self :: w.running_experiments →
      ∀ p ∈ [pre_experiment, experiment, post_experiment],
        Leads env (fun s _ => s = v) p (fun _ s _ => Step env t v s) (fun _ s _ => Step env t v s)) :
    Leads env (fun s _ => s = w) (run t self pre_experiment experiment post_experiment)
      (fun _ s _ => Step env t w s) (fun _ s _ => Step env t w s) := by
  unfold run
  refine Leads.modify_bind (R := fun s _ => s = w.call self) (fun _ _ hs => hs ▸ rfl) ?_
  refine Leads.tryFinally (R := fun _ s _ => Step env t w s.ret) (T := fun _ s _ => Step env t w s.ret) ?_
    (fun _ => Leads.modify fun _ _ hs => hs) fun _ => Leads.modify fun _ _ hs => hs
  refine attempt_bind (fun s hs => hs ▸ step_call_ret hself) ?_
  refine Leads.tryFinally (R := fun _ s _ => Midway env t w self s) (T := fun _ s _ => Midway env t w self s) ?_
    (fun _ => tearDown_leads hc) fun _ => tearDown_leads hc
  refine Leads.modify_bind (R := fun s _ => s = (w.call self).append self) (fun _ _ hs => hs ▸ rfl)
    (uncovered_bind hc ?_)
  refine Leads.modify_bind (R := fun s _ => Inside env t w self none none none none s)
    (fun _ _ hs => hs ▸ inside_mark hself) ?_
  refine attempt_bind (fun _ hs => hs.midway) ?_
  refine Leads.modify_bind (R := fun s _ => Inside env t w self none none none none s)
    (fun _ _ hs => hs.quiet (quiet_setExperiment rfl rfl rfl)) ?_
  refine Leads.bind (prepare_leads hself) fun path => ?_
  refine Leads.bind (setUpLogging_leads hc) fun _ => ?_
  refine Leads.get_bind fun v => ?_
  refine attempt_bind (fun _ hs => hs.1.midway) ?_
  refine attempt_bind (fun _ hs => hs.1.midway) ?_
  cases hi : v.baseWriter with
  | none => exact Leads.throw fun _ _ hs => hs.1.midway
  | some i =>
    intro s n hs
    obtain ⟨hready, rfl⟩ := hs
    refine Leads.mono (outputTo_leads hc (p := fun s => ∀ g, Settled env t g w → Shows env t g v s) hi
      (fun _ _ _ h => h) (fun _ _ => .of_seen rfl) ?_) (fun _ _ h => h) (fun _ s' _ h => ?_) (fun _ s' _ h => ?_) v n rfl
    · -- the three parts, each from where the one before ended
      have hrun : v.running_experiments = self :: w.running_experiments := by
        obtain ⟨_, _, _, _, hin⟩ := hready.midway
        exact hin.running_experiments
      have hstep : ∀ s, Step env t (v.setWriter i ⟨some (t.experiment_log path), some (t.experiment_log path)⟩) s →
          Back env (v.setWriter i ⟨some (t.experiment_log path), some (t.experiment_log path)⟩) s ∧
            ∀ g, Settled env t g w → Shows env t g v s :=
        fun s h => ⟨h.back, fun g hg => h.shows g (hready.settled hg hi)⟩
      refine Leads.mono ?_ (fun _ _ h => h) (fun _ s _ h => hstep s h) (fun _ s _ h => hstep s h)
      refine step_bind (part_leads (hparts (v.setWriter i _) hrun pre_experiment (by simp))) fun u hu => ?_
      have hru := hu.back.running_experiments.trans hrun
      refine step_bind (part_leads (hparts u hru experiment (by simp))) fun u' hu' => ?_
      exact part_leads (hparts u' (hu'.back.running_experiments.trans hru) post_experiment (by simp))
    · obtain ⟨_, _, _, _, hin⟩ := hready.midway
      exact (hin.back h.1 h.2).midway
    · obtain ⟨_, _, _, _, hin⟩ := hready.midway
      exact (hin.back h.1 h.2).midway

/-- Any code that runs no experiment inside itself. -/
theorem exec_step (henv : Covered env) (c : Code ι) : ∀ w : World ι Path, c.NotNested w.running_experiments →
    Leads env (fun s _ => s = w) (exec t c) (fun _ s _ => Step env t w s) (fun _ s _ => Step env t w s) := by
  induction c with
  | piece =>
    intro w _
    have hstep : Step env t w { w with seen := w.seen ++ [w.look] } := by
      refine ⟨⟨rfl, rfl, rfl, rfl, rfl, fun _ _ => rfl, fun _ _ _ _ => rfl⟩, fun g hg s hs => ?_⟩
      obtain hs | hs := List.mem_append.mp hs
      · exact .inl hs
      · rw [List.mem_singleton.mp hs]
        exact .inr hg.sound
    refine Leads.modify_bind (R := fun s _ => Step env t w s) (fun s _ hs => hs ▸ hstep) ?_
    exact Leads.ask (fun _ _ _ hs _ => hs) fun _ _ _ hs _ => hs
  | seq p q ihp ihq =>
    intro w hc
    refine step_bind (ihp w hc.1) fun v hv => ihq v ?_
    rw [hv.back.running_experiments]
    exact hc.2
  | tryExcept p handler ihp ihh =>
    intro w hc
    refine Leads.tryExcept (ihp w hc.1) fun e s n hs => ?_
    have hh : handler.NotNested s.running_experiments := by
      rw [hs.back.running_experiments]
      exact hc.2
    exact (ihh s hh s n rfl).mono (fun _ _ _ h => hs.trans h) fun _ _ _ h => hs.trans h
  | run self pre_experiment experiment post_experiment ihpre ih ihpost =>
    intro w hc
    obtain ⟨hself, hpre, hexp, hpost⟩ := hc
    refine run_leads henv hself fun v hv p hp => ?_
    simp only [List.mem_cons, List.not_mem_nil, or_false] at hp
    obtain rfl | rfl | rfl := hp
    · exact ihpre v (hv ▸ hpre)
    · exact ih v (hv ▸ hexp)
    · exact ihpost v (hv ▸ hpost)

/-- Whatever raises where the clean-up covers it: experiments put everything back
that they set up. -/
theorem exec_leads (env : Nat → Moment) (t : Templates Path) (c : Code ι) (w : World ι Path) (n : Nat)
    (henv : Covered env) (hc : c.NotNested w.running_experiments) :
    Leaves (fun _ w' _ => Back env w w') (fun _ w' _ => Back env w w') (exec t c env w n) :=
  (exec_step henv c w hc w n rfl).mono (fun _ _ _ h => h.back) fun _ _ _ h => h.back

theorem exec_leads_raising :
    (Code.run 0 .piece (.tryExcept (.run 1 .piece .piece .piece) .piece) .piece).NotNested [] ∧
      Leaves (fun _ w' _ => Back (fun n => ⟨if n = 35 then .error .keyboardInterrupt else .ok (), .ok (), .ok (), "now"⟩)
          (World.init fun _ : Nat => .init "experiment" none) w')
        (fun _ w' _ => Back (fun n => ⟨if n = 35 then .error .keyboardInterrupt else .ok (), .ok (), .ok (), "now"⟩)
          (World.init fun _ : Nat => .init "experiment" none) w')
        (exec ⟨[0], fun path _ _ i => path ++ [i], fun path _ _ i => path ++ [i], fun path => path ++ [0]⟩
          (.run 0 .piece (.tryExcept (.run 1 .piece .piece .piece) .piece) .piece)
          (fun n => ⟨if n = 35 then .error .keyboardInterrupt else .ok (), .ok (), .ok (), "now"⟩)
          (World.init fun _ : Nat => .init "experiment" none) 0) :=
  ⟨by simp [Code.NotNested], exec_leads _ _ _ _ _ (fun _ => rfl) (by simp [Code.NotNested, World.init])⟩

/-- An interrupt while the log terminal is joined: the experiment stays on the stack,
with its handler and its forwarder. -/
example : ∃ w : World Nat (List Nat),
    exec ⟨[0], fun path _ _ i => path ++ [i], fun path _ _ i => path ++ [i], fun path => path ++ [0]⟩
        (.run 0 .piece .piece .piece) (fun n => ⟨.ok (), if n = 25 then .error .keyboardInterrupt else .ok (), .ok (), "now"⟩)
        (World.init fun _ : Nat => .init "experiment" none) 0 = (.throw .keyboardInterrupt, w, 26) ∧
      w.running_experiments = [0] ∧ w.handlers.length = 1 ∧ w.forwarders.length = 1 := by
  refine ⟨_, rfl, rfl, rfl, rfl⟩

end Run

end Catkit2.L4.Experiments
