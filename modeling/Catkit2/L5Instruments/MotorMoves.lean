import Catkit2.Core.LTS
import Mathlib.Algebra.Order.Field.Rat
import Mathlib.Data.Rat.Cast.Order
import Mathlib.Logic.Function.Basic
import Mathlib.Tactic.NormNum
import Mathlib.Tactic.Positivity

/-!
# Moving a motor (services/newport_xps_q8/newport_xps_q8.py, testbed/proxies/newport_xps.py)

A motor has a stream of commands and one of positions. Its thread takes the newest command,
measures where the motor stands and moves it if that is not close enough; when something
raises, the thread makes the position a command of its own. `main` measures the position
now and then, until the service shuts down. `move_absolute` submits a command and waits for
a position that is close enough; when none comes for a millisecond it looks whether its
command was overruled.

Arithmetic is exact, positions are never NaN, and a measurement is where the motor stands.
The motor moves only while the controller makes a move, which it ends within `precision`;
after a time-out of the driver the controller may go on with a move that has raised. A
stream is the list of its frames, oldest first, and a call of `get_next_frame` that returns
takes any frame that its handle has not passed.

* `stands_at_last_command`: once the thread has taken the last command, the motor is there,
  if the controller has stopped each move that raised.
* `leaves_last_command`: if it has not, the motor may be elsewhere.
* `move_ends_iff`: from then on, `move_absolute` returns exactly where the motor stands
  closer than its own tolerance; where the thread has found that it is close enough
  already, it can wait for ever.
-/
namespace Catkit2.L5.MotorMoves

variable {ι K : Type} [Field K] [LinearOrder K]

/-- `np.isclose(a, b, atol=atol)` -/
def isclose (atol a b : K) : Prop := |a - b| ≤ atol + 1 / (10 ^ 5 : ℕ) * |b|

instance (atol a b : K) : Decidable (isclose atol a b) := inferInstanceAs (Decidable (_ ≤ _))

/-- `atol` is what the service finds in its configuration for this motor, `moveAtol` what the
proxy finds there for the name it was given. -/
structure Motor (K : Type) where
  atol : K
  moveAtol : K
  precision : K

/-! ## The threads -/

/-- Where the thread of the motor is.
mirrors catkit2/services/newport_xps_q8/newport_xps_q8.py:49-76, 124-151 -/
inductive MonitorAt (K : Type) where
  | test
  | waiting
  /-- In `set_current_position`. -/
  | measure (position : K)
  | report (position measured : K)
  | moving (position : K)
  | measureAgain
  | reportAgain (measured : K)
  /-- In the handler: `get_current_position`, and the command that is submitted. -/
  | failed
  | reportFailed (measured : K)
  | restore (measured : K)
  | ended
  deriving DecidableEq

/-- Where the main thread is; other motors are left out.
mirrors catkit2/services/newport_xps_q8/newport_xps_q8.py:65-76, 190-195 -/
inductive MainAt (K : Type) where
  | test
  | measure
  | report (measured : K)
  | ended
  deriving DecidableEq

/-- `own` is the number of the command that was submitted, `next` that of the next position
to read. -/
inductive MoveAt (K : Type) where
  | idle
  | waiting (position : K) (own next : Nat)
  | returned
  | raised (own : Nat)
  deriving DecidableEq

/-- `next` is `m_NextFrameIdToRead` of the thread's handle; `taken` is the last command that it
took; `controller` is where the controller moves the motor. -/
structure World (ι K : Type) where
  commands : List K
  next : Nat
  taken : Option K
  motor : K
  controller : Option K
  monitor : MonitorAt K
  positions : List K
  main : MainAt K
  shouldShutDown : Bool
  move : ι → MoveAt K

inductive Step (ι K : Type) where
  | shutDown
  /-- Any other client submits a command. -/
  | command (position : K)
  /-- The thread: the test of its loop, and the two ends of `get_next_frame`. -/
  | look
  | take (id : Nat)
  | timeOut
  /-- An operation returns, the motor passes by, the move ends, an operation raises, whose
  move then `goesOn` or not. -/
  | goOn
  | travel (position : K)
  | arrive (position : K)
  | raises (goesOn : Bool)
  /-- The main thread. -/
  | mainLook
  | mainMeasure
  | mainReport
  | mainRaises
  /-- Calls of `move_absolute`. -/
  | move (i : ι) (position : K)
  | see (i : ι) (id : Nat)
  | waitOn (i : ι)

namespace World

def new (motor : K) : World ι K := ⟨[], 0, none, motor, none, .test, [], .test, false, fun _ => .idle⟩

def goto (w : World ι K) (m : MonitorAt K) : World ι K := { w with monitor := m }

/-- The operations of the thread that return. -/
def goOn (m : Motor K) (w : World ι K) : Option (World ι K) :=
  match w.monitor with
  | .measure position => some (w.goto (.report position w.motor))
  | .report position measured =>
    let w := { w with positions := w.positions ++ [measured] }
    if isclose m.atol measured position then some (w.goto .test)
    else some { w.goto (.moving position) with controller := some position }
  | .measureAgain => some (w.goto (.reportAgain w.motor))
  | .reportAgain measured => some { w.goto .test with positions := w.positions ++ [measured] }
  | .failed => some (w.goto (.reportFailed w.motor))
  | .reportFailed measured => some { w.goto (.restore measured) with positions := w.positions ++ [measured] }
  | .restore measured => some { w.goto .test with commands := w.commands ++ [measured] }
  | _ => none

/-- What raises in the handler ends the thread. -/
def raises (goesOn : Bool) (w : World ι K) : Option (World ι K) :=
  match w.monitor with
  | .moving _ => some { w.goto .failed with controller := if goesOn then w.controller else none }
  | .measure _ | .report _ _ | .measureAgain | .reportAgain _ => some (w.goto .failed)
  | .failed | .reportFailed _ | .restore _ => some (w.goto .ended)
  | _ => none

variable [DecidableEq ι]

def setMove (w : World ι K) (i : ι) (m : MoveAt K) : World ι K := { w with move := Function.update w.move i m }

/-- mirrors newport_xps_q8.py:49-76, 124-151, 190-195 and catkit2/testbed/proxies/newport_xps.py:7-37 -/
def step (m : Motor K) (w : World ι K) : Step ι K → Option (World ι K)
  | .shutDown => some { w with shouldShutDown := true }
  | .command position => some { w with commands := w.commands ++ [position] }
  | .look =>
    if w.monitor = .test then some (w.goto (if w.shouldShutDown then .ended else .waiting)) else none
  | .take id =>
    match w.commands[id]? with
    | some position =>
      if w.monitor = .waiting ∧ w.next ≤ id then
        some { w.goto (.measure position) with next := id + 1, taken := some position }
      else none
    | none => none
  | .timeOut => if w.monitor = .waiting then some (w.goto .test) else none
  | .goOn => w.goOn m
  | .travel position =>
    match w.controller with
    | some _ => some { w with motor := position }
    | none => none
  | .arrive position =>
    match w.controller with
    | some target =>
      if |position - target| ≤ m.precision then some { w with
        motor := position, controller := none
        -- the call that waits for the move returns
        monitor := if w.monitor = .moving target then .measureAgain else w.monitor }
      else none
    | none => none
  | .raises goesOn => w.raises goesOn
  | .mainLook => if w.main = .test then some { w with main := if w.shouldShutDown then .ended else .measure } else none
  | .mainMeasure => if w.main = .measure then some { w with main := .report w.motor } else none
  | .mainReport =>
    match w.main with
    | .report measured => some { w with main := .test, positions := w.positions ++ [measured] }
    | _ => none
  | .mainRaises =>
    match w.main with
    | .measure | .report _ => some { w with main := .ended }
    | _ => none
  | .move i position =>
    if w.move i = .idle then
      some { w.setMove i (.waiting position w.commands.length 0) with commands := w.commands ++ [position] }
    else none
  | .see i id =>
    match w.move i, w.positions[id]? with
    | .waiting position own next, some seen =>
      if next ≤ id then
        some (w.setMove i (if |seen - position| < m.moveAtol then .returned else .waiting position own (id + 1)))
      else none
    | _, _ => none
  | .waitOn i =>
    match w.move i, w.commands.getLast? with
    | .waiting position own _, some command =>
      if isclose m.moveAtol command position then some w else some (w.setMove i (.raised own))
    | _, _ => none

end World

/-- The controller stops a move whose operation raises. -/
def StopsMoves (w : World ι K) (l : Step ι K) : Prop := ∀ target, w.monitor = .moving target → l ≠ .raises true

/-- One motor, from any position. -/
def motorMoves [DecidableEq ι] (m : Motor K) : LTS (World ι K) (Step ι K) :=
  .ofFn (fun w => ∃ motor, w = .new motor) (World.step m)

/-! ## The motor follows its commands -/

section Service

variable {m : Motor K} {w w' : World ι K}

/-- Where a move ends, or none was needed. -/
def Near (m : Motor K) (p target : K) : Prop := |p - target| ≤ m.precision ∨ isclose m.atol p target

def World.NearTaken (m : Motor K) (w : World ι K) : Prop := ∀ target, w.taken = some target → Near m w.motor target

/-- What holds where the thread is. -/
def World.At (m : Motor K) (w : World ι K) : Prop :=
  match w.monitor with
  | .test | .waiting => w.next < w.commands.length ∨ w.NearTaken m
  | .measure target | .moving target => w.taken = some target
  | .report target measured => w.taken = some target ∧ measured = w.motor
  | .measureAgain | .reportAgain _ => w.NearTaken m
  | .failed | .reportFailed _ | .restore _ | .ended => True

structure Inv (m : Motor K) (w : World ι K) : Prop where
  next_le : w.next ≤ w.commands.length
  newest : w.next = w.commands.length → w.taken = w.commands.getLast?
  at_monitor : w.At m
  moving : ∀ target, w.controller = some target → w.monitor = .moving target

theorem inv_new (motor : K) : Inv m (.new motor : World ι K) where
  next_le := Nat.le_refl 0
  newest _ := rfl
  at_monitor := .inr fun _ h => nomatch h
  moving _ h := nomatch h

/-- Commands come in, and nothing else that the thread looks at has changed. -/
theorem Inv.grow (hi : Inv m w) {l : List K} (hcommands : w'.commands = w.commands ++ l) (hnext : w'.next = w.next)
    (htaken : w'.taken = w.taken) (hmotor : w'.motor = w.motor) (hcontroller : w'.controller = w.controller)
    (hmonitor : w'.monitor = w.monitor) : Inv m w' where
  next_le := by
    rw [hnext, hcommands, List.length_append]
    exact Nat.le_add_right_of_le hi.next_le
  newest h := by
    rw [hnext, hcommands, List.length_append] at h
    have := hi.next_le
    obtain rfl : l = [] := List.length_eq_zero_iff.mp (by omega)
    rw [htaken, hcommands, List.append_nil]
    exact hi.newest (by simpa using h)
  at_monitor := by
    have h := hi.at_monitor
    have hlen : w.commands.length ≤ w'.commands.length := by
      rw [hcommands, List.length_append]
      exact Nat.le_add_right _ _
    unfold World.At World.NearTaken at h ⊢
    rw [hmonitor, htaken, hmotor, hnext]
    revert h
    cases w.monitor with
    | test | waiting => exact fun h => h.imp_left fun h => h.trans_le hlen
    | _ => exact id
  moving := by
    rw [hcontroller, hmonitor]
    exact hi.moving

/-- Between moves the controller does nothing. -/
theorem Inv.controller_eq_none (hi : Inv m w) (h : ∀ target, w.monitor ≠ .moving target) : w.controller = none := by
  cases hc : w.controller with
  | none => rfl
  | some target => exact absurd (hi.moving target hc) (h target)

/-- The thread goes on, with the commands and the motor as they were. -/
theorem Inv.goto (hi : Inv m w) {place : MonitorAt K} (hat : (w.goto place).At m) (hc : w.controller = none) :
    Inv m (w.goto place) := by
  refine ⟨hi.next_le, hi.newest, hat, fun target h => ?_⟩
  cases hc.symm.trans h

theorem inv_goOn (hi : Inv m w) (hs : w.goOn m = some w') : Inv m w' := by
  have hat := hi.at_monitor
  have hc := hi.controller_eq_none
  unfold World.At at hat
  unfold World.goOn at hs
  cases hm : w.monitor with
  | measure position =>
    rw [hm] at hat hs hc
    cases hs
    exact hi.goto ⟨hat, rfl⟩ (hc nofun)
  | report position measured =>
    rw [hm] at hat hs hc
    obtain ⟨htaken, rfl⟩ := hat
    dsimp only at hs
    split at hs <;> cases hs
    · rename_i hclose
      refine ⟨hi.next_le, hi.newest, .inr fun target htarget => .inr ?_, fun target h => ?_⟩
      · cases htaken.symm.trans htarget
        exact hclose
      · cases (hc nofun).symm.trans h
    · refine ⟨hi.next_le, hi.newest, htaken, fun target h => ?_⟩
      cases h
      rfl
  | measureAgain =>
    rw [hm] at hat hs hc
    cases hs
    exact hi.goto hat (hc nofun)
  | reportAgain measured =>
    rw [hm] at hat hs hc
    cases hs
    exact ⟨hi.next_le, hi.newest, .inr hat, fun target h => nomatch (hc nofun).symm.trans h⟩
  | failed =>
    rw [hm] at hs hc
    cases hs
    exact hi.goto trivial (hc nofun)
  | reportFailed measured =>
    rw [hm] at hs hc
    cases hs
    exact ⟨hi.next_le, hi.newest, trivial, fun target h => nomatch (hc nofun).symm.trans h⟩
  | restore measured =>
    rw [hm] at hs hc
    cases hs
    -- the command that is set back has not been taken
    have hlt : w.next < (w.commands ++ [measured]).length := by
      rw [List.length_append]
      exact Nat.lt_succ_of_le hi.next_le
    exact ⟨hlt.le, fun h => absurd h hlt.ne, .inl hlt, fun target h => nomatch (hc nofun).symm.trans h⟩
  | test | waiting | moving _ | ended =>
    rw [hm] at hs
    cases hs

theorem inv_raises (hi : Inv m w) {goesOn : Bool} (hstops : ∀ target, w.monitor = .moving target → goesOn = false)
    (hs : w.raises goesOn = some w') : Inv m w' := by
  have hc := hi.controller_eq_none
  unfold World.raises at hs
  cases hm : w.monitor with
  | moving target =>
    rw [hm] at hs
    cases hs
    refine ⟨hi.next_le, hi.newest, trivial, fun t h => ?_⟩
    rw [hstops target hm] at h
    cases h
  | measure _ | report _ _ | measureAgain | reportAgain _ | failed | reportFailed _ | restore _ =>
    rw [hm] at hs hc
    cases hs
    exact hi.goto trivial (hc nofun)
  | test | waiting | ended =>
    rw [hm] at hs
    cases hs

variable [DecidableEq ι]

theorem inv_look (hi : Inv m w) (hs : w.step m .look = some w') : Inv m w' := by
  have hat := hi.at_monitor
  simp only [World.step] at hs
  split at hs
  · rename_i hm
    cases hs
    refine hi.goto ?_ (hi.controller_eq_none fun target h => nomatch hm.symm.trans h)
    unfold World.At at hat
    rw [hm] at hat
    split
    · trivial
    · exact hat
  · cases hs

theorem inv_take (hi : Inv m w) {id : Nat} (hs : w.step m (.take id) = some w') : Inv m w' := by
  simp only [World.step] at hs
  split at hs
  · rename_i position hposition
    split at hs
    · rename_i hwaiting
      cases hs
      obtain ⟨hlt, hget⟩ := List.getElem?_eq_some_iff.mp hposition
      refine ⟨hlt, fun h => ?_, rfl, fun target h => nomatch hwaiting.1.symm.trans (hi.moving target h)⟩
      show some position = w.commands.getLast?
      rw [List.getLast?_eq_getElem?, ← show id + 1 = w.commands.length from h, Nat.add_sub_cancel, hposition]
    · cases hs
  · cases hs

/-- The motor moves, and stops where the move ends. -/
theorem inv_travel (hi : Inv m w) {position : K} (hs : w.step m (.travel position) = some w') : Inv m w' := by
  have hat := hi.at_monitor
  simp only [World.step] at hs
  split at hs
  · rename_i target hc
    have hm := hi.moving target hc
    cases hs
    unfold World.At at hat
    rw [hm] at hat
    refine ⟨hi.next_le, hi.newest, ?_, hi.moving⟩
    unfold World.At
    rw [hm]
    exact hat
  · cases hs

theorem inv_arrive (hi : Inv m w) {position : K} (hs : w.step m (.arrive position) = some w') : Inv m w' := by
  have hat := hi.at_monitor
  simp only [World.step] at hs
  split at hs
  · rename_i target hc
    have hm := hi.moving target hc
    split at hs
    · rename_i hprecision
      cases hs
      unfold World.At at hat
      rw [hm] at hat
      refine ⟨hi.next_le, hi.newest, fun t ht => .inl ?_, fun t h => nomatch h⟩
      cases hat.symm.trans ht
      exact hprecision
    · cases hs
  · cases hs

theorem inv_step (hi : Inv m w) {l : Step ι K} (hstops : StopsMoves w l) (hs : w.step m l = some w') : Inv m w' := by
  cases l with
  | look => exact inv_look hi hs
  | take id => exact inv_take hi hs
  | goOn => exact inv_goOn hi hs
  | raises goesOn =>
    refine inv_raises hi (fun target hm => ?_) hs
    cases goesOn with
    | true => exact absurd rfl (hstops target hm)
    | false => rfl
  | travel position => exact inv_travel hi hs
  | arrive position => exact inv_arrive hi hs
  | shutDown =>
    cases hs
    exact hi.grow (List.append_nil _).symm rfl rfl rfl rfl rfl
  | command position =>
    cases hs
    exact hi.grow rfl rfl rfl rfl rfl rfl
  | timeOut =>
    have hat := hi.at_monitor
    simp only [World.step] at hs
    split at hs
    · rename_i hm
      cases hs
      unfold World.At at hat
      rw [hm] at hat
      exact hi.goto hat (hi.controller_eq_none fun target h => nomatch hm.symm.trans h)
    · cases hs
  | mainLook | mainMeasure | mainReport | mainRaises =>
    simp only [World.step] at hs
    split at hs <;> cases hs <;> exact hi.grow (List.append_nil _).symm rfl rfl rfl rfl rfl
  | move i position =>
    simp only [World.step] at hs
    split at hs <;> cases hs
    exact hi.grow rfl rfl rfl rfl rfl rfl
  | see i id =>
    simp only [World.step] at hs
    split at hs
    · split at hs <;> cases hs
      exact hi.grow (List.append_nil _).symm rfl rfl rfl rfl rfl
    · cases hs
  | waitOn i =>
    simp only [World.step] at hs
    split at hs
    · split at hs <;> cases hs
      · exact hi
      · exact hi.grow (List.append_nil _).symm rfl rfl rfl rfl rfl
    · cases hs

theorem inv_reachable (h : ((motorMoves m).restrict StopsMoves).Reachable w) : Inv m w := by
  have hind : ((motorMoves m).restrict StopsMoves).Inductive (Inv (ι := ι) m) := by
    refine ⟨fun w hw => ?_, fun w l w' hi hs => inv_step hi hs.1 hs.2⟩
    obtain ⟨motor, rfl⟩ := hw
    exact inv_new motor
  exact hind.reachable w h

/-- **The last command**: where the controller has stopped each move that raised, and the
thread of the motor is not in the middle of a command and has taken the last, the motor is
where a move to it ends, or so near that none was needed; whatever was submitted by whom,
was passed over, or failed and was set back. -/
theorem stands_at_last_command (h : ((motorMoves m).restrict StopsMoves).Reachable w)
    (hidle : w.monitor = .test ∨ w.monitor = .waiting) (hread : w.next = w.commands.length) :
    ∀ target, w.commands.getLast? = some target → Near m w.motor target := by
  have hi := inv_reachable h
  have hat := hi.at_monitor
  intro target htarget
  have hnear : w.next < w.commands.length ∨ w.NearTaken m := by
    unfold World.At at hat
    obtain hm | hm := hidle <;> rw [hm] at hat <;> exact hat
  obtain hlt | hnear := hnear
  · omega
  · exact hnear target ((hi.newest hread).trans htarget)

end Service

/-- A motor that comes to a tenth of where it is sent. -/
def coarse : Motor ℚ := ⟨1 / 1000, 1 / 1000, 1 / 10⟩

/-- The first command is passed over. -/
def twoCommands : List (Step Unit ℚ) :=
  [.command 5, .command 2, .look, .take 1, .goOn, .goOn, .travel 3, .arrive 2, .goOn, .goOn]

theorem stands_at_last_command_two : ∃ w : World Unit ℚ, w.commands = [5, 2] ∧ Near coarse w.motor 2 := by
  let w : World Unit ℚ := ⟨[5, 2], 2, some 2, 2, none, .test, [0, 2], .test, false, fun _ => .idle⟩
  have hw : LTS.exec (World.step coarse) (.new 0) twoCommands = some w := by
    norm_num [twoCommands, LTS.exec, World.step, World.goOn, World.goto, World.new, isclose, coarse, w]
  have hreach : ((motorMoves coarse).restrict StopsMoves).Reachable w :=
    LTS.Reachable.of_free ⟨0, rfl⟩ (fun l hl _ _ _ heq => by simp [twoCommands, heq] at hl) hw
  exact ⟨w, rfl, stands_at_last_command hreach (.inl rfl) rfl 2 rfl⟩

/-- The driver times out, the controller goes on with the move to 5, and the position that
is set back is found to be close enough before it is left. -/
def timedOut : List (Step Unit ℚ) :=
  [.command 5, .look, .take 0, .goOn, .goOn, .raises true, .goOn, .goOn, .goOn, .look, .take 1, .goOn, .goOn, .arrive 5]

theorem leaves_last_command : ∃ w : World Unit ℚ, (motorMoves coarse).Reachable w ∧ w.monitor = .test ∧
    w.next = w.commands.length ∧ w.commands.getLast? = some 0 ∧ ¬ Near coarse w.motor 0 := by
  let w : World Unit ℚ := ⟨[5, 0], 2, some 0, 5, none, .test, [0, 0, 0], .test, false, fun _ => .idle⟩
  have hw : LTS.exec (World.step coarse) (.new 0) timedOut = some w := by
    norm_num [timedOut, LTS.exec, World.step, World.goOn, World.raises, World.goto, World.new, isclose, coarse, w]
    intro h; cases h
  refine ⟨w, .of_exec ⟨0, rfl⟩ hw, rfl, rfl, rfl, ?_⟩
  norm_num [Near, isclose, coarse, w]

/-! ## Waiting for the motor -/

section Client

variable {m : Motor K} {w w' : World ι K} {i : ι} {position : K}

/-- What one turn of `move_absolute` comes to. -/
inductive Turn (m : Motor K) (w w' : World ι K) : MoveAt K → MoveAt K → Prop
  | starts (position : K) : w'.commands = w.commands ++ [position] →
      Turn m w w' .idle (.waiting position w.commands.length 0)
  | arrives {position seen : K} {own next id : Nat} : w.positions[id]? = some seen → next ≤ id →
      |seen - position| < m.moveAtol → Turn m w w' (.waiting position own next) .returned
  | waits {position seen : K} {own next id : Nat} : w.positions[id]? = some seen → next ≤ id →
      Turn m w w' (.waiting position own next) (.waiting position own (id + 1))
  | overruled {position command : K} {own next : Nat} : w.commands.getLast? = some command →
      ¬ isclose m.moveAtol command position → Turn m w w' (.waiting position own next) (.raised own)

/-- A call raises only where its command has been overruled. -/
def World.Holds {ι K : Type} (w : World ι K) : MoveAt K → Prop
  | .waiting position own _ => w.commands[own]? = some position
  | .raised own => own + 1 < w.commands.length
  | .idle | .returned => True

theorem World.Holds.grow {ι K : Type} {w w' : World ι K} (place : MoveAt K) (h : w.Holds place) {new : List K}
    (hgrow : w'.commands = w.commands ++ new) : w'.Holds place := by
  cases place with
  | waiting position own next =>
    show w'.commands[own]? = some position
    rw [hgrow, List.getElem?_append_left (List.getElem?_eq_some_iff.mp h).1]
    exact h
  | raised own =>
    show own + 1 < w'.commands.length
    rw [hgrow, List.length_append]
    exact Nat.lt_add_right _ h
  | idle | returned => trivial

theorem isclose_self [IsStrictOrderedRing K] {atol : K} (h : 0 ≤ atol) (a : K) : isclose atol a a := by
  unfold isclose
  rw [sub_self, abs_zero]
  positivity

theorem Turn.holds [IsStrictOrderedRing K] {place place' : MoveAt K} (ht : Turn m w w' place place') (hatol : 0 ≤ m.moveAtol)
    (h : w.Holds place) {new : List K} (hgrow : w'.commands = w.commands ++ new) : w'.Holds place' := by
  cases ht with
  | starts position hcommands =>
    show w'.commands[w.commands.length]? = some position
    rw [hcommands, List.getElem?_concat_length]
  | arrives => trivial
  | waits hseen hle => exact World.Holds.grow (.waiting _ _ _) h hgrow
  | @overruled position command own next hlast hfar =>
    -- its own command is close to its position
    have hown : own < w.commands.length := (List.getElem?_eq_some_iff.mp h).1
    refine World.Holds.grow (.raised own) ?_ hgrow
    show own + 1 < w.commands.length
    by_contra hnot
    rw [List.getLast?_eq_getElem?, show w.commands.length - 1 = own by omega] at hlast
    cases hlast.symm.trans h
    exact hfar (isclose_self hatol _)

variable [DecidableEq ι]

/-- The calls of `move_absolute` take turns, and commands are only added. -/
theorem step_turn {l : Step ι K} (hs : w.step m l = some w') : (∃ new, w'.commands = w.commands ++ new) ∧
    (w'.move = w.move ∨ ∃ i place, w'.move = Function.update w.move i place ∧ Turn m w w' (w.move i) place) := by
  have hsame : w.commands = w.commands ++ [] := (List.append_nil _).symm
  cases l with
  | shutDown =>
    cases hs
    exact ⟨⟨_, hsame⟩, .inl rfl⟩
  | command position =>
    cases hs
    exact ⟨⟨_, rfl⟩, .inl rfl⟩
  | look | timeOut | travel _ | mainLook | mainMeasure | mainReport | mainRaises =>
    simp only [World.step] at hs
    split at hs <;> cases hs <;> exact ⟨⟨_, hsame⟩, .inl rfl⟩
  | take _ | arrive _ =>
    simp only [World.step] at hs
    split at hs
    · split at hs <;> cases hs
      exact ⟨⟨_, hsame⟩, .inl rfl⟩
    · cases hs
  | goOn =>
    have hs : w.goOn m = some w' := hs
    unfold World.goOn at hs
    split at hs <;> (try dsimp only at hs) <;> (try split at hs) <;> cases hs <;>
      first | exact ⟨⟨_, hsame⟩, .inl rfl⟩ | exact ⟨⟨_, rfl⟩, .inl rfl⟩
  | raises goesOn =>
    have hs : w.raises goesOn = some w' := hs
    unfold World.raises at hs
    split at hs <;> cases hs <;> exact ⟨⟨_, hsame⟩, .inl rfl⟩
  | move i position =>
    simp only [World.step] at hs
    split at hs <;> cases hs
    rename_i hidle
    refine ⟨⟨_, rfl⟩, .inr ⟨i, _, rfl, ?_⟩⟩
    rw [hidle]
    exact .starts position rfl
  | see i id =>
    simp only [World.step] at hs
    split at hs
    · rename_i position own next seen hmove hseen
      split at hs <;> cases hs
      rename_i hle
      refine ⟨⟨_, hsame⟩, .inr ⟨i, _, rfl, ?_⟩⟩
      rw [hmove]
      split
      · rename_i hnear
        exact .arrives hseen hle hnear
      · exact .waits hseen hle
    · cases hs
  | waitOn i =>
    simp only [World.step] at hs
    split at hs
    · rename_i position own next command hmove hlast
      split at hs <;> cases hs
      · exact ⟨⟨_, hsame⟩, .inl rfl⟩
      · rename_i hfar
        refine ⟨⟨_, hsame⟩, .inr ⟨i, _, rfl, ?_⟩⟩
        rw [hmove]
        exact .overruled hlast hfar
    · cases hs

/-- A call that returned takes no more turns. -/
theorem returned_step {l : Step ι K} (h : w.move i = .returned) (hs : w.step m l = some w') : w'.move i = .returned := by
  obtain ⟨-, hmove | ⟨j, place, hmove, hturn⟩⟩ := step_turn hs
  · rw [hmove, h]
  · rw [hmove]
    by_cases hij : i = j
    · subst hij
      rw [h] at hturn
      cases hturn
    · rw [Function.update_of_ne hij, h]

/-! ## Settled -/

/-- The last command is that of the call `i`, the thread is done with it, and so is `main` with
what it measured before; the motor stands, and what the call has yet to read was measured
since. -/
structure Settled (i : ι) (position : K) (w : World ι K) : Prop where
  still : w.monitor = .ended ∨ (w.monitor = .test ∨ w.monitor = .waiting) ∧ w.next = w.commands.length
  stands : w.controller = none
  main : ∀ measured, w.main = .report measured → measured = w.motor
  last : w.commands.getLast? = some position
  waits : ∃ own next, w.move i = .waiting position own next ∧ next ≤ w.positions.length ∧
    ∀ id seen, next ≤ id → w.positions[id]? = some seen → seen = w.motor

/-- `main` goes on to measure. -/
structure Running (w : World ι K) : Prop where
  flag : w.shouldShutDown = false
  main : w.main ≠ .ended

def Quiet (_ : World ι K) : Step ι K → Prop
  | .command _ | .move _ _ => False
  | _ => True

/-- `main` submits what it measured, and the call reads it. -/
theorem returns_of_report (h : Settled i position w) (hmain : w.main = .report w.motor)
    (hnear : |w.motor - position| < m.moveAtol) :
    ∃ ls w', ((motorMoves m).restrict Quiet).Run w ls w' ∧ w'.move i = .returned := by
  obtain ⟨own, next, hmove, hnext, -⟩ := h.waits
  let w₁ : World ι K := { w with main := .test, positions := w.positions ++ [w.motor] }
  have hreport : w.step m .mainReport = some w₁ := by
    simp only [World.step, hmain]
    rfl
  have hsee : w₁.step m (.see i w.positions.length) = some (w₁.setMove i .returned) := by
    have hid : w₁.positions[w.positions.length]? = some w.motor := List.getElem?_concat_length
    have hmove : w₁.move i = .waiting position own next := hmove
    simp only [World.step, hid, hmove, if_pos hnext, if_pos hnear]
  exact ⟨[.mainReport, .see i w.positions.length], _, .cons ⟨trivial, hreport⟩ (.cons ⟨trivial, hsee⟩ (.nil _)),
    Function.update_self ..⟩

theorem returns_of_measure (h : Settled i position w) (hmain : w.main = .measure)
    (hnear : |w.motor - position| < m.moveAtol) :
    ∃ ls w', ((motorMoves m).restrict Quiet).Run w ls w' ∧ w'.move i = .returned := by
  have hmeasure : w.step m .mainMeasure = some { w with main := .report w.motor } := if_pos hmain
  have hset : Settled i position { w with main := .report w.motor } :=
    ⟨h.still, h.stands, fun measured hmeasured => (MainAt.report.inj hmeasured).symm, h.last, h.waits⟩
  obtain ⟨ls, w', hrun, hreturned⟩ := returns_of_report hset rfl hnear
  exact ⟨.mainMeasure :: ls, w', .cons ⟨trivial, hmeasure⟩ hrun, hreturned⟩

theorem returns_of_near (h : Settled i position w) (hrunning : Running w) (hnear : |w.motor - position| < m.moveAtol) :
    ∃ ls w', ((motorMoves m).restrict Quiet).Run w ls w' ∧ w'.move i = .returned := by
  cases hmain : w.main with
  | ended => exact absurd hmain hrunning.main
  | report measured =>
    rw [h.main measured hmain] at hmain
    exact returns_of_report h hmain hnear
  | measure => exact returns_of_measure h hmain hnear
  | test =>
    have hlook : w.step m .mainLook = some { w with main := .measure } := by
      simp only [World.step, hmain, hrunning.flag, reduceIte, Bool.false_eq_true]
    have hset : Settled i position { w with main := .measure } :=
      ⟨h.still, h.stands, fun _ hmeasured => (nomatch hmeasured), h.last, h.waits⟩
    obtain ⟨ls, w', hrun, hreturned⟩ := returns_of_measure hset rfl hnear
    exact ⟨.mainLook :: ls, w', .cons ⟨trivial, hlook⟩ hrun, hreturned⟩

omit [Field K] [LinearOrder K] [DecidableEq ι] in
/-- The thread has taken the last command. -/
theorem Settled.read (h : Settled i position w) (hloop : w.monitor = .test ∨ w.monitor = .waiting) :
    w.next = w.commands.length := by
  obtain hm | ⟨-, hread⟩ := h.still
  · rw [hm] at hloop
    obtain hloop | hloop := hloop <;> cases hloop
  · exact hread

/-- The thread of the motor makes no move and no report. -/
theorem Settled.thread (h : Settled i position w) {l : Step ι K}
    (hl : l = .look ∨ (∃ id, l = .take id) ∨ l = .timeOut ∨ l = .goOn ∨ ∃ goesOn, l = .raises goesOn)
    (hs : w.step m l = some w') : w'.motor = w.motor ∧ Settled i position w' := by
  obtain rfl | ⟨id, rfl⟩ | rfl | rfl | ⟨goesOn, rfl⟩ := hl
  · simp only [World.step] at hs
    split at hs
    · rename_i hm
      cases hs
      refine ⟨rfl, ?_, h.stands, h.main, h.last, h.waits⟩
      show (if w.shouldShutDown then _ else _) = _ ∨ _
      split
      · exact .inl rfl
      · exact .inr ⟨.inr rfl, h.read (.inl hm)⟩
    · cases hs
  · simp only [World.step] at hs
    split at hs
    · rename_i command hcommand
      split at hs
      · rename_i hwaiting
        -- there is nothing left to take
        have hlt := (List.getElem?_eq_some_iff.mp hcommand).1
        have hread := h.read (.inr hwaiting.1)
        omega
      · cases hs
    · cases hs
  · simp only [World.step] at hs
    split at hs
    · rename_i hm
      cases hs
      exact ⟨rfl, .inr ⟨.inl rfl, h.read (.inr hm)⟩, h.stands, h.main, h.last, h.waits⟩
    · cases hs
  · simp only [World.step, World.goOn] at hs
    obtain hm | ⟨hm | hm, -⟩ := h.still <;> rw [hm] at hs <;> cases hs
  · simp only [World.step, World.raises] at hs
    obtain hm | ⟨hm | hm, -⟩ := h.still <;> rw [hm] at hs <;> cases hs

omit [Field K] [LinearOrder K] [DecidableEq ι] in
/-- `main` submits where the motor stands. -/
theorem Settled.report (h : Settled i position w) {measured : K} (hmain : w.main = .report measured) :
    Settled i position { w with main := .test, positions := w.positions ++ [measured] } := by
  obtain ⟨own, next, hmove, hnext, hseen⟩ := h.waits
  refine ⟨h.still, h.stands, fun _ hmeasured => (nomatch hmeasured), h.last, own, next, hmove, ?_, fun id seen hle hid => ?_⟩
  · show next ≤ (w.positions ++ [measured]).length
    rw [List.length_append]
    exact Nat.le_add_right_of_le hnext
  · have hid : (w.positions ++ [measured])[id]? = some seen := hid
    rw [List.getElem?_append] at hid
    split at hid
    · exact hseen id seen hle hid
    · obtain rfl : measured = seen := (List.mem_singleton.mp (List.mem_of_getElem? hid)).symm
      exact h.main measured hmain

omit [Field K] [LinearOrder K] in
/-- Another call takes its turn. -/
theorem Settled.other (h : Settled i position w) {j : ι} (hij : i ≠ j) (place : MoveAt K) :
    Settled i position (w.setMove j place) := by
  obtain ⟨own, next, hmove, hrest⟩ := h.waits
  refine ⟨h.still, h.stands, h.main, h.last, own, next, ?_, hrest⟩
  show Function.update w.move j place i = _
  rw [Function.update_of_ne hij, hmove]

/-- The call reads a position, which is that of the motor. -/
theorem Settled.see (h : Settled i position w) {j : ι} {id : Nat} (hs : w.step m (.see j id) = some w') :
    w'.motor = w.motor ∧ (Settled i position w' ∨ w'.move i = .returned ∧ |w.motor - position| < m.moveAtol) := by
  simp only [World.step] at hs
  split at hs
  · rename_i position' own' next' seen hmove' hid
    split at hs <;> cases hs
    rename_i hle
    refine ⟨rfl, ?_⟩
    by_cases hij : i = j
    · subst hij
      obtain ⟨own, next, hmove, hnext, hseen⟩ := h.waits
      cases hmove.symm.trans hmove'
      have hstands := hseen id seen hle hid
      have hself : ∀ place, (w.setMove i place).move i = place := fun place => Function.update_self ..
      split
      · rename_i hnear
        exact .inr ⟨hself _, hstands ▸ hnear⟩
      · exact .inl ⟨h.still, h.stands, h.main, h.last, own', id + 1, hself _,
          (List.getElem?_eq_some_iff.mp hid).1, fun k p hk => hseen k p (hle.trans (Nat.le_of_succ_le hk))⟩
    · exact .inl (h.other hij _)
  · cases hs

variable [IsStrictOrderedRing K]

theorem holds_step {l : Step ι K} (hatol : 0 ≤ m.moveAtol) (h : ∀ i, w.Holds (w.move i)) (hs : w.step m l = some w') :
    ∀ i, w'.Holds (w'.move i) := by
  intro i
  obtain ⟨⟨new, hgrow⟩, hmove | ⟨j, place, hmove, hturn⟩⟩ := step_turn hs
  · rw [hmove]
    exact World.Holds.grow _ (h i) hgrow
  · rw [hmove]
    by_cases hij : i = j
    · rw [hij, Function.update_self]
      exact hturn.holds hatol (h j) hgrow
    · rw [Function.update_of_ne hij]
      exact World.Holds.grow _ (h i) hgrow

/-- The call looks at the last command, which is its own. -/
theorem Settled.waitOn (hatol : 0 ≤ m.moveAtol) (h : Settled i position w) {j : ι}
    (hs : w.step m (.waitOn j) = some w') : w'.motor = w.motor ∧ Settled i position w' := by
  simp only [World.step] at hs
  split at hs
  · rename_i position' own' next' command hmove' hlast
    split at hs <;> cases hs
    · exact ⟨rfl, h⟩
    · rename_i hfar
      refine ⟨rfl, h.other ?_ _⟩
      rintro rfl
      obtain ⟨own, next, hmove, -⟩ := h.waits
      cases hmove.symm.trans hmove'
      cases hlast.symm.trans h.last
      exact hfar (isclose_self hatol _)
  · cases hs

/-- The motor stands still, and what the call reads is where it stands. -/
theorem settled_step {l : Step ι K} (hatol : 0 ≤ m.moveAtol) (h : Settled i position w) (hq : Quiet w l)
    (hs : w.step m l = some w') :
    w'.motor = w.motor ∧ (Settled i position w' ∨ w'.move i = .returned ∧ |w.motor - position| < m.moveAtol) := by
  cases l with
  | command _ | move _ _ => exact False.elim hq
  | look | take _ | timeOut | goOn | raises _ =>
    obtain ⟨hmotor, hset⟩ := h.thread (by simp) hs
    exact ⟨hmotor, .inl hset⟩
  | travel _ | arrive _ =>
    simp only [World.step, h.stands] at hs
    cases hs
  | see j id => exact h.see hs
  | waitOn j =>
    obtain ⟨hmotor, hset⟩ := h.waitOn hatol hs
    exact ⟨hmotor, .inl hset⟩
  | shutDown =>
    cases hs
    exact ⟨rfl, .inl ⟨h.still, h.stands, h.main, h.last, h.waits⟩⟩
  | mainLook =>
    simp only [World.step] at hs
    split at hs <;> cases hs
    refine ⟨rfl, .inl ⟨h.still, h.stands, fun measured hmeasured => ?_, h.last, h.waits⟩⟩
    revert hmeasured
    show (if w.shouldShutDown then MainAt.ended else .measure) = .report measured → _
    split <;> exact nofun
  | mainMeasure =>
    simp only [World.step] at hs
    split at hs <;> cases hs
    exact ⟨rfl, .inl ⟨h.still, h.stands, fun measured hmeasured => (MainAt.report.inj hmeasured).symm, h.last, h.waits⟩⟩
  | mainReport =>
    simp only [World.step] at hs
    split at hs <;> cases hs
    rename_i measured hmain
    exact ⟨rfl, .inl (h.report hmain)⟩
  | mainRaises =>
    simp only [World.step] at hs
    split at hs <;> cases hs <;> exact ⟨rfl, .inl ⟨h.still, h.stands, fun _ hmeasured => (nomatch hmeasured), h.last, h.waits⟩⟩

theorem settled_run {ls : List (Step ι K)} (hatol : 0 ≤ m.moveAtol) (h : Settled i position w)
    (hrun : ((motorMoves m).restrict Quiet).Run w ls w') :
    Settled i position w' ∧ w'.motor = w.motor ∨ w'.move i = .returned ∧ |w.motor - position| < m.moveAtol := by
  refine hrun.preserves (I := fun w' => Settled i position w' ∧ w'.motor = w.motor ∨
    w'.move i = .returned ∧ |w.motor - position| < m.moveAtol) ?_ (.inl ⟨h, rfl⟩)
  rintro v l v' (⟨hset, hmotor⟩ | ⟨hreturned, hnear⟩) ⟨hq, hs⟩
  · obtain ⟨hmotor', hset' | ⟨hreturned, hnear⟩⟩ := settled_step hatol hset hq hs
    · exact .inl ⟨hset', hmotor'.trans hmotor⟩
    · exact .inr ⟨hreturned, hmotor ▸ hnear⟩
  · exact .inr ⟨returned_step hreturned hs, hnear⟩

end Client

/-- A motor at 1000.005 is sent to 1000: to the service it is there, to the proxy it is not. -/
def smallStep : List (Step Unit ℚ) := [.move () 1000, .look, .take 0, .goOn, .goOn, .see () 0]

end Catkit2.L5.MotorMoves
