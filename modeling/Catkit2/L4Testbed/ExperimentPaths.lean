import Catkit2.L4Testbed.Experiment

/-!
# The paths of sub-experiments (catkit2/testbed/experiment.py)

An experiment counts its children. The count is not set back when it runs again,
and goes into the paths of the children, so that two children of one experiment
do not write to the same place, whatever raised in between.

* `ids_consecutive`: the numbers of the children, over any number of runs.
* `children_apart`: no two children of an experiment have the same path.
-/
namespace Catkit2.L4.Experiments

open Catkit2.Script World

variable {ι Path : Type} {env : Nat → Moment}

theorem attempt_keeps {I : World ι Path → Prop} : Keeps env (fun w _ => I w) attempt :=
  Keeps.ask (fun _ _ h => h) _

theorem uncovered_keeps {I : World ι Path → Prop} : Keeps env (fun w _ => I w) uncovered :=
  Keeps.ask (fun _ _ h => h) _

theorem setLocals_experiments (w : World ι Path) (f : Locals → Locals) :
    (w.setLocals f).numbered = w.numbered ∧ (w.setLocals f).experiments = w.experiments := by
  unfold setLocals
  split <;> exact ⟨rfl, rfl⟩

variable [DecidableEq ι] {t : Templates Path} {w : World ι Path} {self : ι}

/-- The children of `parent` that were numbered. -/
def World.children (w : World ι Path) (parent : ι) : List (Numbered ι Path) :=
  w.numbered.filter fun x => x.parent = parent

/-- From `first` on, the children have had consecutive numbers, and the path of each
is made of its own number. -/
structure World.Counted (t : Templates Path) (first : ι → Nat) (w : World ι Path) : Prop where
  consecutive : ∀ parent, ∃ m, (w.experiments parent).child_experiment_id = first parent + m ∧
    (w.children parent).map Numbered.experiment_id = List.range' (first parent) m
  path : ∀ x ∈ w.numbered, ∃ date_and_time name,
    x.output_path = t.sub_experiment_path x.parent_path date_and_time name x.experiment_id

variable {first : ι → Nat}

/-- What leaves the numbers alone. -/
theorem World.Counted.congr {w w' : World ι Path} (h : Counted t first w) (hn : w'.numbered = w.numbered)
    (he : ∀ e, (w'.experiments e).child_experiment_id = (w.experiments e).child_experiment_id) :
    Counted t first w' := by
  refine ⟨fun parent => ?_, hn ▸ h.path⟩
  rw [he, World.children, hn]
  exact h.consecutive parent

theorem setExperiment_child_experiment_id {f : Experiment Path → Experiment Path} (e : ι)
    (h : (f (w.experiments self)).child_experiment_id = (w.experiments self).child_experiment_id) :
    ((w.setExperiment self f).experiments e).child_experiment_id = (w.experiments e).child_experiment_id := by
  by_cases he : e = self
  · rw [he, setExperiment_self, h]
  · rw [setExperiment_of_ne f he]

theorem newWriter_child_experiment_id (w : World ι Path) (self e : ι) :
    ((w.newWriter self).experiments e).child_experiment_id = (w.experiments e).child_experiment_id :=
  setExperiment_child_experiment_id (f := fun e => { e with log_writer := some w.next }) e rfl

theorem newTerminal_child_experiment_id (w : World ι Path) (self e : ι) :
    ((w.newTerminal self).experiments e).child_experiment_id = (w.experiments e).child_experiment_id :=
  setExperiment_child_experiment_id (f := fun e => { e with log_terminal := some w.next }) e rfl

theorem call_child_experiment_id (w : World ι Path) (self e : ι) :
    ((w.call self).experiments e).child_experiment_id = (w.experiments e).child_experiment_id :=
  setExperiment_child_experiment_id (f := fun e => { e with log_writer := none, log_terminal := none }) e rfl

theorem World.Counted.setLocals {w : World ι Path} (h : Counted t first w) (f : Locals → Locals) :
    Counted t first (w.setLocals f) :=
  h.congr (setLocals_experiments w f).1 fun e => congrArg (fun g => (g e).child_experiment_id)
    (setLocals_experiments w f).2

/-- One more child. -/
theorem World.Counted.number {w : World ι Path} (h : Counted t first w) (parent : ι) (base_data_path : Path)
    (date_and_time name : String) :
    Counted t first { w.setExperiment parent fun e => { e with child_experiment_id := e.child_experiment_id + 1 } with
      numbered := w.numbered ++ [⟨parent, base_data_path, (w.experiments parent).child_experiment_id,
        t.sub_experiment_path base_data_path date_and_time name (w.experiments parent).child_experiment_id⟩] } := by
  constructor
  · intro e
    obtain ⟨m, hm, hl⟩ := h.consecutive e
    unfold World.children at hl ⊢
    by_cases he : e = parent
    · subst he
      refine ⟨m + 1, ?_, ?_⟩
      · simp only [setExperiment, Function.update_self]
        omega
      · simp [hl, hm, List.range'_concat]
    · refine ⟨m, ?_, ?_⟩
      · simp only [setExperiment, Function.update_of_ne he]
        exact hm
      · have hne : ¬ parent = e := fun h => he h.symm
        simp [hl, hne]
  · intro x hx
    obtain hx | hx := List.mem_append.mp hx
    · exact h.path x hx
    · rw [List.mem_singleton.mp hx]
      exact ⟨date_and_time, name, rfl⟩

theorem numberChild_keeps {parent : ι} {base_data_path : Path} :
    Keeps env (fun w _ => Counted t first w) (numberChild t self parent base_data_path) := by
  intro s n hs
  exact hs.number parent base_data_path (env n).date_and_time (s.experiments self).name

theorem computeOutputPath_keeps : Keeps env (fun w _ => Counted t first w) (computeOutputPath t self) := by
  unfold computeOutputPath
  refine Keeps.bind .get fun v => ?_
  split
  · split
    · exact .throw _
    · refine attempt_keeps.bind fun _ => ?_
      refine numberChild_keeps.bind fun _ => ?_
      exact attempt_keeps.bind fun _ => .pure _
  · refine attempt_keeps.bind fun _ => ?_
    refine Keeps.bind (.read (fun _ _ h => h) _) fun date => ?_
    exact attempt_keeps.bind fun _ => .pure _

theorem prepare_keeps : Keeps env (fun w _ => Counted t first w) (prepare t self) := by
  unfold prepare
  refine computeOutputPath_keeps.bind fun path => ?_
  refine Keeps.bind (.modify fun w _ hw => ?_) fun _ => ?_
  · exact hw.congr rfl fun e => setExperiment_child_experiment_id e rfl
  · refine attempt_keeps.bind fun _ => attempt_keeps.bind fun _ => ?_
    exact attempt_keeps.bind fun _ => .pure _

theorem setUpLogging_keeps : Keeps env (fun w _ => Counted t first w) (setUpLogging self) := by
  unfold setUpLogging
  refine Keeps.bind .get fun v => ?_
  split
  · refine attempt_keeps.bind fun _ => ?_
    refine Keeps.bind (.modify fun w _ hw => (hw.setLocals _).congr rfl fun _ => rfl) fun _ => ?_
    refine attempt_keeps.bind fun _ => ?_
    refine Keeps.bind (.modify fun w _ hw => (hw.setLocals _).congr rfl fun _ => rfl) fun _ => ?_
    refine attempt_keeps.bind fun _ => attempt_keeps.bind fun _ => ?_
    refine Keeps.bind (.modify fun w _ hw => ?_) fun _ => uncovered_keeps.bind fun _ => ?_
    · exact hw.congr rfl (newWriter_child_experiment_id w self)
    refine Keeps.bind (.modify fun w _ hw => hw.congr rfl fun _ => rfl) fun _ => attempt_keeps.bind fun _ => ?_
    refine Keeps.bind (.modify fun w _ hw => ?_) fun _ => uncovered_keeps.bind fun _ => ?_
    · exact hw.congr rfl (newTerminal_child_experiment_id w self)
    exact .modify fun w _ hw => hw.congr rfl fun _ => rfl
  · exact .pure _

theorem setOutputFilename_keeps {i : Nat} {output_filename : Option Path} :
    Keeps env (fun w _ => Counted t first w) (setOutputFilename i output_filename) := by
  refine .act fun w n hw => ?_
  split <;> exact hw.congr rfl fun _ => rfl

theorem tearDown_keeps : Keeps env (fun w _ => Counted t first w) (tearDown self) := by
  unfold tearDown
  refine uncovered_keeps.bind fun _ => Keeps.bind (.modify fun w _ hw => hw.congr rfl fun _ => rfl) fun _ => ?_
  refine uncovered_keeps.bind fun _ => Keeps.bind (.modify fun w _ hw => hw.congr rfl fun _ => rfl) fun _ => ?_
  refine uncovered_keeps.bind fun _ => Keeps.bind (.modify fun w _ hw => hw.congr rfl fun _ => rfl) fun _ => ?_
  refine uncovered_keeps.bind fun _ => Keeps.bind (.modify fun w _ hw => hw.congr rfl fun _ => rfl) fun _ => ?_
  refine uncovered_keeps.bind fun _ => .modify fun w _ hw => ?_
  unfold World.pop
  split
  · exact hw.congr rfl fun _ => rfl
  · exact hw

theorem run_keeps {pre_experiment experiment post_experiment : Run ι Path Unit}
    (hpre : Keeps env (fun w _ => Counted t first w) pre_experiment)
    (hexp : Keeps env (fun w _ => Counted t first w) experiment)
    (hpost : Keeps env (fun w _ => Counted t first w) post_experiment) :
    Keeps env (fun w _ => Counted t first w) (run t self pre_experiment experiment post_experiment) := by
  have hpart : ∀ {p : Run ι Path Unit}, Keeps env (fun w _ => Counted t first w) p →
      Keeps env (fun w _ => Counted t first w) (part p) := by
    intro p hp
    refine .tryExcept hp fun e => ?_
    cases e with
    | exception text => exact attempt_keeps.bind fun _ => attempt_keeps.bind fun _ => .throw _
    | keyboardInterrupt => exact .throw _
  unfold run
  refine Keeps.bind (.modify fun w _ hw => ?_) fun _ => .tryFinally (attempt_keeps.bind fun _ => ?_)
    (.modify fun w _ hw => hw.congr rfl fun _ => rfl)
  · exact hw.congr rfl (call_child_experiment_id w self)
  refine .tryFinally ?_ tearDown_keeps
  refine Keeps.bind (.modify fun w _ hw => hw.congr rfl fun _ => rfl) fun _ => uncovered_keeps.bind fun _ => ?_
  refine Keeps.bind (.modify fun w _ hw => hw.setLocals _) fun _ => attempt_keeps.bind fun _ => ?_
  refine Keeps.bind (.modify fun w _ hw => ?_) fun _ => ?_
  · exact hw.congr rfl fun e => setExperiment_child_experiment_id e rfl
  refine prepare_keeps.bind fun path => setUpLogging_keeps.bind fun _ => Keeps.bind .get fun v => ?_
  refine attempt_keeps.bind fun _ => attempt_keeps.bind fun _ => ?_
  unfold outputTo
  split
  · exact .throw _
  · refine Keeps.bind .get fun v => setOutputFilename_keeps.bind fun _ => uncovered_keeps.bind fun _ => ?_
    refine .tryFinally ?_ setOutputFilename_keeps
    exact (hpart hpre).bind fun _ => (hpart hexp).bind fun _ => hpart hpost

theorem exec_counted (c : Code ι) : Keeps env (fun w : World ι Path => fun _ => Counted t first w) (exec t c) := by
  induction c with
  | piece => exact Keeps.bind (.modify fun w _ hw => hw.congr rfl fun _ => rfl) fun _ => attempt_keeps
  | seq p q ihp ihq => exact ihp.bind fun _ => ihq
  | tryExcept p handler ihp ihh => exact ihp.tryExcept fun _ => ihh
  | run self pre_experiment experiment post_experiment ihpre ih ihpost => exact run_keeps ihpre ih ihpost

/-! ## Runs -/

/-- Before an experiment was numbered. -/
theorem counted_of_nil (h : w.numbered = []) :
    Counted t (fun e => (w.experiments e).child_experiment_id) w := by
  refine ⟨fun parent => ⟨0, rfl, ?_⟩, ?_⟩
  · simp [World.children, h]
  · simp [h]

/-- The numbers of an experiment's children follow each other, over all of its runs
and whatever they raised. -/
theorem ids_consecutive (env : Nat → Moment) (t : Templates Path) (c : Code ι) (w : World ι Path) (n : Nat)
    (h : w.numbered = []) (parent : ι) :
    ∃ m, (((exec t c env w n).2.1.children parent).map Numbered.experiment_id) =
      List.range' (w.experiments parent).child_experiment_id m := by
  obtain ⟨m, -, hm⟩ := (exec_counted c w n (counted_of_nil (t := t) h)).consecutive parent
  exact ⟨m, hm⟩

theorem World.Counted.apart {first : ι → Nat} (h : Counted t first w)
    (hinj : ∀ path date_and_time date_and_time' name name' i j,
      t.sub_experiment_path path date_and_time name i = t.sub_experiment_path path date_and_time' name' j → i = j) :
    w.numbered.Pairwise fun x y => x.parent = y.parent → x.parent_path = y.parent_path → x.output_path ≠ y.output_path := by
  rw [List.pairwise_iff_getElem]
  intro i j hi hj hij hparent hpath heq
  obtain ⟨m, -, hm⟩ := h.consecutive w.numbered[i].parent
  have hlt : w.numbered[i].experiment_id < w.numbered[j].experiment_id := by
    have hsorted : ((w.children w.numbered[i].parent).map Numbered.experiment_id).Pairwise (· < ·) := by
      rw [hm]
      exact List.pairwise_lt_range'
    rw [List.pairwise_map, World.children, List.pairwise_filter, List.pairwise_iff_getElem] at hsorted
    exact hsorted i j hi hj hij (by simp) (by simp [hparent])
  obtain ⟨d, name, hx⟩ := h.path _ (List.getElem_mem hi)
  obtain ⟨d', name', hy⟩ := h.path _ (List.getElem_mem hj)
  rw [hx, hy, hpath] at heq
  have := hinj _ _ _ _ _ _ _ heq
  omega

/-- Two children of one experiment below one path have paths of their own. -/
theorem children_apart (env : Nat → Moment) (t : Templates Path) (c : Code ι) (w : World ι Path) (n : Nat)
    (h : w.numbered = [])
    (hinj : ∀ path date_and_time date_and_time' name name' i j,
      t.sub_experiment_path path date_and_time name i = t.sub_experiment_path path date_and_time' name' j → i = j) :
    (exec t c env w n).2.1.numbered.Pairwise fun x y =>
      x.parent = y.parent → x.parent_path = y.parent_path → x.output_path ≠ y.output_path :=
  (exec_counted c w n (counted_of_nil h)).apart hinj

theorem children_apart_two :
    (exec ⟨[0], fun path _ _ i => path ++ [i], fun path _ _ i => path ++ [i], fun path => path ++ [0]⟩
        (.run 0 .piece (.seq (.run 1 .piece .piece .piece) (.run 1 .piece .piece .piece)) .piece)
        (fun _ => ⟨.ok (), .ok (), .ok (), "now"⟩) (World.init fun _ : Nat => .init "experiment" none) 0).2.1.numbered.Pairwise
      fun x y => x.parent = y.parent → x.parent_path = y.parent_path → x.output_path ≠ y.output_path :=
  children_apart _ _ _ _ _ rfl (by simp)

end Catkit2.L4.Experiments
