import Catkit2.Core.Cleanup
import Mathlib.Data.List.Range

/-!
# Tracing a program (catkit2/testbed/tracing.py)

`trace_interval` is a context manager: it takes the time before and after its body and,
however the body ends, hands the interval to the tracing proxy, which queues it if it is
connected. `trace_instant` does so with one time. The bindings take unsigned numbers: where
the clock went back, the duration is negative, and `trace_interval` raises a `TypeError`
instead.

A program is one thread; its surroundings answer from a script (`Moment`). The numbers of
the calls, and which interval encloses which, are kept for the proofs.

* `Part.append`, `Part.close`: what one program traced, and then another; and what one
  traced inside an interval.
* `trace_nests`: with a clock that does not go back, each call is traced once, the intervals
  nest as the calls did, and the program raises nothing but what its own code raised.
-/
namespace Catkit2.L4.TraceIntervals

open Script

/-! ## The functions -/

inductive PyError where
  | exception (text : String)
  | typeError
  deriving DecidableEq

/-- What the code at this moment does, what the clock says, and whether the tracing proxy is
connected. -/
structure Moment where
  result : Except PyError Unit
  timestamp : UInt64
  connected : Bool

inductive Kind where
  | interval (category : String) (duration : UInt64)
  | instant

/-- mirrors catkit_core/Tracing.h:11-31; `call` is the number of the call and `enclosing` that of
the interval around it. -/
structure Event where
  name : String
  timestamp : UInt64
  kind : Kind
  call : Nat
  enclosing : Option Nat

/-- `events` is what was queued, `calls` how many calls were made, `enclosing` are the calls of
`trace_interval` whose body runs. -/
structure World where
  events : List Event
  calls : Nat
  enclosing : List Nat

def World.init : World := ⟨[], 0, []⟩

def World.call (w : World) : World := { w with calls := w.calls + 1 }

def World.enter (w : World) : World := { w.call with enclosing := w.calls :: w.enclosing }

def World.leave (w : World) : World := { w with enclosing := w.enclosing.tail }

/-- mirrors catkit_core/Tracing.h:59-69 -/
def World.addTraceEvent (w : World) (connected : Bool) (e : Event) : World :=
  if connected then { w with events := w.events ++ [e] } else w

abbrev Run : Type := Script Moment World PyError Unit

/-- mirrors catkit2/testbed/tracing.py:224-227, catkit_core/Tracing.cpp:62-76; `before` is the world at the call. -/
def endInterval (name category : String) (start : UInt64) (before : World) : Run := do
  let stop ← read Moment.timestamp
  act fun m w =>
    -- `end - start` is negative, and the binding takes a `uint64_t`
    if stop < start then (.error .typeError, w.leave)
    else
      (.ok (), w.leave.addTraceEvent m.connected
        ⟨name, start, .interval category (stop - start), before.calls, before.enclosing.head?⟩)

/-- mirrors catkit2/testbed/tracing.py:205-227 -/
def traceInterval (name category : String) (body : Run) : Run := do
  let start ← read Moment.timestamp
  let before ← get
  modify World.enter
  tryFinally body (endInterval name category start before)

/-- mirrors catkit2/testbed/tracing.py:229-243 -/
def traceInstant (name : String) : Run := do
  let timestamp ← read Moment.timestamp
  act fun m w => (.ok (), w.call.addTraceEvent m.connected ⟨name, timestamp, .instant, w.calls, w.enclosing.head?⟩)

/-! ## Programs -/

/-- A `piece` is any code that traces nothing. -/
inductive Code where
  | piece
  | seq (p q : Code)
  | tryExcept (p handler : Code)
  | interval (name category : String) (body : Code)
  | instant (name : String)

def exec : Code → Run
  | .piece => ask Moment.result
  | .seq p q => do
    exec p
    exec q
  | .tryExcept p handler => Script.tryExcept (exec p) fun _ => exec handler
  | .interval name category body => traceInterval name category (exec body)
  | .instant name => traceInstant name

/-! ## How events lie -/

namespace Event

def start (e : Event) : Nat := e.timestamp.toNat

def stop (e : Event) : Nat :=
  match e.kind with
  | .interval _ duration => e.timestamp.toNat + duration.toNat
  | .instant => e.timestamp.toNat

def Within (e outer : Event) : Prop := outer.start ≤ e.start ∧ e.stop ≤ outer.stop

/-- Of two events the later one begins after the earlier, or encloses it. -/
def Nests (e later : Event) : Prop := e.stop ≤ later.start ∨ e.Within later

end Event

variable {env : Nat → Moment}

def clock (env : Nat → Moment) (n : Nat) : Nat := (env n).timestamp.toNat

/-- What is traced from moment `n` to `n'`, by the calls from `first` on, inside `enclosing`. -/
structure Part (env : Nat → Moment) (enclosing : Option Nat) (n n' first count : Nat) (l : List Event) : Prop where
  calls : (l.map Event.call).Perm (List.range' first count)
  nests : l.Pairwise Event.Nests
  enclosed : ∀ e ∈ l, e.enclosing = enclosing ∨ ∃ outer ∈ l, e.enclosing = some outer.call ∧ e.Within outer
  bounds : ∀ e ∈ l, clock env n ≤ e.start ∧ e.start ≤ e.stop ∧ e.stop ≤ clock env n'

theorem Part.nil (enclosing : Option Nat) (n n' first : Nat) : Part env enclosing n n' first 0 [] where
  calls := by simp
  nests := .nil
  enclosed := by simp
  bounds := by simp

/-- A part, and then another. -/
theorem Part.append {enclosing : Option Nat} {n n₁ n₂ first count count' : Nat} {l l' : List Event}
    (h : Part env enclosing n n₁ first count l) (h' : Part env enclosing n₁ n₂ (first + count) count' l')
    (hn : clock env n ≤ clock env n₁) (hn' : clock env n₁ ≤ clock env n₂) :
    Part env enclosing n n₂ first (count + count') (l ++ l') where
  calls := by
    rw [List.map_append, ← List.range'_append_1]
    exact h.calls.append h'.calls
  nests := by
    refine List.pairwise_append.mpr ⟨h.nests, h'.nests, fun e he e' he' => .inl ?_⟩
    exact (h.bounds e he).2.2.trans (h'.bounds e' he').1
  enclosed e he := by
    obtain he | he := List.mem_append.mp he
    · obtain houter | ⟨outer, hmem, houter⟩ := h.enclosed e he
      · exact .inl houter
      · exact .inr ⟨outer, List.mem_append_left _ hmem, houter⟩
    · obtain houter | ⟨outer, hmem, houter⟩ := h'.enclosed e he
      · exact .inl houter
      · exact .inr ⟨outer, List.mem_append_right _ hmem, houter⟩
  bounds e he := by
    obtain he | he := List.mem_append.mp he
    · obtain ⟨h1, h2, h3⟩ := h.bounds e he
      exact ⟨h1, h2, h3.trans hn'⟩
    · obtain ⟨h1, h2, h3⟩ := h'.bounds e he
      exact ⟨hn.trans h1, h2, h3⟩

/-- What was traced in the body of an interval, and the interval. -/
theorem Part.close {n n₁ n₂ n' count : Nat} {l : List Event} {outer : Event}
    (h : Part env (some outer.call) n₁ n₂ (outer.call + 1) count l) (hn : clock env n ≤ outer.start)
    (hstart : outer.start ≤ clock env n₁) (hle : outer.start ≤ outer.stop) (hstop : clock env n₂ ≤ outer.stop)
    (hn' : outer.stop ≤ clock env n') :
    Part env outer.enclosing n n' outer.call (count + 1) (l ++ [outer]) where
  calls := by
    rw [List.map_append, List.range'_succ]
    exact (h.calls.append_right _).trans (List.perm_append_singleton _ _)
  nests := by
    refine List.pairwise_append.mpr ⟨h.nests, List.pairwise_singleton _ _, fun e he e' he' => .inr ?_⟩
    obtain ⟨h1, h2, h3⟩ := h.bounds e he
    rw [List.mem_singleton.mp he']
    exact ⟨hstart.trans h1, h3.trans hstop⟩
  enclosed e he := by
    have hself : outer ∈ l ++ [outer] := List.mem_append_right _ List.mem_cons_self
    obtain he | he := List.mem_append.mp he
    · refine .inr ?_
      obtain houter | ⟨outer', hmem, houter⟩ := h.enclosed e he
      · obtain ⟨h1, h2, h3⟩ := h.bounds e he
        exact ⟨outer, hself, houter, hstart.trans h1, h3.trans hstop⟩
      · exact ⟨outer', List.mem_append_left _ hmem, houter⟩
    · rw [List.mem_singleton.mp he]
      exact .inl rfl
  bounds e he := by
    obtain he | he := List.mem_append.mp he
    · obtain ⟨h1, h2, h3⟩ := h.bounds e he
      exact ⟨hn.trans (hstart.trans h1), h2, h3.trans (hstop.trans hn')⟩
    · rw [List.mem_singleton.mp he]
      exact ⟨hn, hle, hn'⟩

/-! ## What a program traces -/

/-- From one world and moment to another, what was traced is a part. -/
structure Traced (env : Nat → Moment) (w : World) (n : Nat) (w' : World) (n' : Nat) : Prop where
  le : n ≤ n'
  enclosing : w'.enclosing = w.enclosing
  part : ∃ count l, w'.calls = w.calls + count ∧ w'.events = w.events ++ l ∧
    Part env w.enclosing.head? n n' w.calls count l

/-- The exception is one that a piece of code raised. -/
def Came (env : Nat → Moment) (e : PyError) : Prop := ∃ m, (env m).result = .error e

/-- Whatever the world before it, `x` traces a part and raises nothing of its own. -/
def Traces (env : Nat → Moment) (x : Run) : Prop :=
  ∀ w n, Leaves (fun _ w' n' => Traced env w n w' n') (fun e w' n' => Traced env w n w' n' ∧ Came env e) (x env w n)

variable {w w₁ w₂ : World} {n n₁ n₂ : Nat} {x y : Run}

theorem Traced.of_le (h : n ≤ n₁) : Traced env w n w n₁ where
  le := h
  enclosing := rfl
  part := ⟨0, [], rfl, (List.append_nil _).symm, Part.nil _ _ _ _⟩

/-- Each call was traced once, and where a call was made inside an interval, its event lies
within the event of that interval. -/
structure Nested (w : World) : Prop where
  calls : (w.events.map Event.call).Perm (List.range w.calls)
  nests : w.events.Pairwise Event.Nests
  enclosed : ∀ e ∈ w.events, ∀ call, e.enclosing = some call →
    ∃ outer ∈ w.events, outer.call = call ∧ e.Within outer

theorem Traced.nested (h : Traced env .init 0 w n) : Nested w := by
  obtain ⟨count, l, hcalls, hevents, hpart⟩ := h.part
  have hcalls : w.calls = count := hcalls.trans (Nat.zero_add count)
  have hevents : w.events = l := hevents
  rw [← hevents] at hpart
  refine ⟨?_, hpart.nests, fun e he call hcall => ?_⟩
  · rw [List.range_eq_range', hcalls]
    exact hpart.calls
  · obtain hnone | ⟨outer, hmem, houter, hwithin⟩ := hpart.enclosed e he
    · have := hnone.symm.trans hcall
      cases this
    · exact ⟨outer, hmem, Option.some.inj (houter.symm.trans hcall), hwithin⟩

section
variable (hclock : ∀ n m, n ≤ m → clock env n ≤ clock env m)
include hclock

theorem Traced.trans (h : Traced env w n w₁ n₁) (h' : Traced env w₁ n₁ w₂ n₂) : Traced env w n w₂ n₂ := by
  obtain ⟨count, l, hcalls, hevents, hpart⟩ := h.part
  obtain ⟨count', l', hcalls', hevents', hpart'⟩ := h'.part
  rw [h.enclosing, hcalls] at hpart'
  refine ⟨h.le.trans h'.le, h'.enclosing.trans h.enclosing, count + count', l ++ l', ?_, ?_, ?_⟩
  · omega
  · rw [hevents', hevents, List.append_assoc]
  · exact hpart.append hpart' (hclock _ _ h.le) (hclock _ _ h'.le)

/-- What was traced up to here and what `x` traces are one part. -/
theorem Traces.after (hx : Traces env x) (w : World) (n : Nat) :
    Leads env (Traced env w n) x (fun _ => Traced env w n) (fun e w' n' => Traced env w n w' n' ∧ Came env e) := by
  intro w₁ n₁ h₁
  refine (hx w₁ n₁).mono ?_ ?_
  · intro _ w₂ n₂ h₂
    exact h₁.trans hclock h₂
  · intro e w₂ n₂ h₂
    exact ⟨h₁.trans hclock h₂.1, h₂.2⟩

theorem Traces.seq (hx : Traces env x) (hy : Traces env y) : Traces env (do x; y) := by
  intro w n
  exact Leads.bind (hx.after hclock w n) (fun _ => hy.after hclock w n) w n (Traced.of_le (Nat.le_refl n))

theorem Traces.tryExcept (hx : Traces env x) (hy : Traces env y) : Traces env (Script.tryExcept x fun _ => y) := by
  intro w n
  refine Leads.tryExcept (hx.after hclock w n) (fun e => ?_) w n (Traced.of_le (Nat.le_refl n))
  exact (hy.after hclock w n).mono (fun _ _ h => h.1) (fun _ _ _ h => h) (fun _ _ _ h => h)

/-- The interval encloses what its body traced. -/
theorem Traced.close {outer : Event} (h : Traced env w.enter (n + 1) w₁ n₁) (hcall : outer.call = w.calls)
    (henclosing : outer.enclosing = w.enclosing.head?) (hstart : outer.start = clock env n)
    (hstop : outer.stop = clock env n₁) (m : Moment) (hm : m.connected) :
    Traced env w n (w₁.leave.addTraceEvent m.connected outer) (n₁ + 2) := by
  obtain ⟨count, l, hcalls, hevents, hpart⟩ := h.part
  have hafter : clock env n ≤ clock env (n + 1) := hclock n (n + 1) (Nat.le_succ n)
  have hle : clock env n ≤ clock env n₁ := hclock n n₁ (Nat.le_of_succ_le h.le)
  have hend : clock env n₁ ≤ clock env (n₁ + 2) := hclock n₁ (n₁ + 2) (by omega)
  rw [World.addTraceEvent, if_pos hm]
  refine ⟨?_, ?_, count + 1, l ++ [outer], ?_, ?_, ?_⟩
  · have := h.le
    omega
  · show w₁.enclosing.tail = w.enclosing
    rw [h.enclosing]
    rfl
  · show w₁.calls = w.calls + (count + 1)
    rw [hcalls]
    show w.calls + 1 + count = w.calls + (count + 1)
    omega
  · show w₁.events ++ [outer] = w.events ++ (l ++ [outer])
    rw [hevents, List.append_assoc]
    rfl
  · have hbody : Part env (some outer.call) (n + 1) n₁ (outer.call + 1) count l := by
      rw [hcall]
      exact hpart
    rw [← henclosing, ← hcall]
    exact hbody.close hstart.ge (hstart.trans_le hafter) (by omega) hstop.ge (hstop.trans_le hend)

end

theorem traces_piece : Traces env (ask Moment.result) := by
  intro w n
  refine Leads.ask (P := fun s m => s = w ∧ m = n) ?_ ?_ w n ⟨rfl, rfl⟩
  · intro s m _ hs _
    obtain ⟨rfl, rfl⟩ := hs
    exact Traced.of_le (Nat.le_succ m)
  · intro s m e hs he
    obtain ⟨rfl, rfl⟩ := hs
    exact ⟨Traced.of_le (Nat.le_succ m), m, he⟩

section
variable (hclock : ∀ n m, n ≤ m → clock env n ≤ clock env m) (hconnected : ∀ n, (env n).connected)
include hclock hconnected

theorem traces_instant (name : String) : Traces env (traceInstant name) := by
  intro w n
  have hle := hclock n (n + 2) (by omega)
  refine ⟨by omega, ?_, 1, [⟨name, (env n).timestamp, .instant, w.calls, w.enclosing.head?⟩], ?_, ?_, ?_⟩
  · simp [World.addTraceEvent, hconnected, World.call]
  · simp [World.addTraceEvent, hconnected, World.call]
  · simp [World.addTraceEvent, hconnected, World.call]
  · refine ⟨by simp, List.pairwise_singleton _ _, ?_, ?_⟩
    · intro e he
      rw [List.mem_singleton.mp he]
      exact .inl rfl
    · intro e he
      rw [List.mem_singleton.mp he]
      exact ⟨Nat.le_refl _, Nat.le_refl _, hle⟩

/-- The `finally` block raises nothing. -/
theorem endInterval_leads (name category : String) (w : World) (n : Nat) {E : PyError → World → Nat → Prop} :
    Leads env (Traced env w.enter (n + 1)) (endInterval name category (env n).timestamp w)
      (fun _ => Traced env w n) E := by
  intro w₁ n₁ h
  have hle : clock env n ≤ clock env n₁ := hclock n n₁ (Nat.le_of_succ_le h.le)
  have hnot : ¬ (env n₁).timestamp < (env n).timestamp := by
    rw [UInt64.lt_iff_toNat_lt]
    exact Nat.not_lt.mpr hle
  have hduration : ((env n₁).timestamp - (env n).timestamp).toNat = clock env n₁ - clock env n :=
    UInt64.toNat_sub_of_le _ _ (UInt64.le_iff_toNat_le.mpr hle)
  refine Leads.bind (P := fun s m => s = w₁ ∧ m = n₁)
    (R := fun stop s m => stop = (env n₁).timestamp ∧ s = w₁ ∧ m = n₁ + 1) ?_ (fun stop => ?_) w₁ n₁ ⟨rfl, rfl⟩
  · refine Leads.read fun s m hs => ?_
    obtain ⟨rfl, rfl⟩ := hs
    exact ⟨rfl, rfl, rfl⟩
  refine Leads.act ?_ ?_
  · intro s m _ s' hs heq
    obtain ⟨rfl, rfl, rfl⟩ := hs
    rw [if_neg hnot] at heq
    obtain ⟨-, rfl⟩ := heq
    refine h.close hclock rfl rfl rfl ?_ _ (hconnected _)
    show clock env n + ((env n₁).timestamp - (env n).timestamp).toNat = clock env n₁
    omega
  · intro s m e s' hs heq
    obtain ⟨rfl, rfl, rfl⟩ := hs
    rw [if_neg hnot] at heq
    cases heq

theorem Traces.interval (name category : String) (hx : Traces env x) : Traces env (traceInterval name category x) := by
  intro w n
  have h : Leads env (fun s m => s = w ∧ m = n) (traceInterval name category x) (fun _ => Traced env w n)
      (fun e w' n' => Traced env w n w' n' ∧ Came env e) := by
    refine Leads.bind (R := fun start s m => start = (env n).timestamp ∧ s = w ∧ m = n + 1) ?_ fun start => ?_
    · refine Leads.read fun s m hs => ?_
      obtain ⟨rfl, rfl⟩ := hs
      exact ⟨rfl, rfl, rfl⟩
    refine Leads.get_bind fun before => ?_
    refine Leads.modify_bind
      (R := fun s m => (start = (env n).timestamp ∧ before = w) ∧ s = w.enter ∧ m = n + 1) ?_ ?_
    · intro s m hs
      obtain ⟨⟨rfl, rfl, rfl⟩, rfl⟩ := hs
      exact ⟨⟨rfl, rfl⟩, rfl, rfl⟩
    intro s m hs
    obtain ⟨⟨rfl, rfl⟩, rfl, rfl⟩ := hs
    refine Leads.tryFinally (hx.after hclock before.enter (n + 1)) (fun _ => ?_) (fun e => ?_) _ _
      (Traced.of_le (Nat.le_refl _))
    · exact endInterval_leads hclock hconnected name category before n
    · -- the exception of the body goes on
      intro s' m' hs'
      refine (endInterval_leads (E := fun _ _ _ => False) hclock hconnected name category before n s' m' hs'.1).mono
        ?_ ?_
      · intro _ _ _ h'
        exact ⟨h', hs'.2⟩
      · intro _ _ _ h'
        exact False.elim h'
  exact h w n ⟨rfl, rfl⟩

theorem exec_traces (c : Code) : Traces env (exec c) := by
  induction c with
  | piece => exact traces_piece
  | seq p q hp hq => exact hp.seq hclock hq
  | tryExcept p handler hp hh => exact hp.tryExcept hclock hh
  | interval name category body ih => exact ih.interval hclock hconnected name category
  | instant name => exact traces_instant hclock hconnected name

/-- With a clock that does not go back and a proxy that stays connected, however a program
ends: each call is traced once, the events nest as the calls did, and an exception that
comes out is one that a piece of code raised. -/
theorem trace_nests (c : Code) :
    Leaves (fun _ w _ => Nested w) (fun e w _ => Nested w ∧ ∃ n, (env n).result = .error e)
      (exec c env World.init 0) := by
  refine (exec_traces hclock hconnected c World.init 0).mono ?_ ?_
  · intro _ w n h
    exact h.nested
  · intro e w n h
    exact ⟨h.1.nested, h.2⟩

end

/-- The clock moves once, and the code in the inner interval raises. -/
def demoEnv (n : Nat) : Moment :=
  ⟨if n = 4 then .error (.exception "no light") else .ok (), if n < 4 then 10 else 30, true⟩

def demoCode : Code := .interval "outer" "" (.seq (.instant "mark") (.interval "inner" "" .piece))

theorem trace_nests_raise :
    ((exec demoCode demoEnv World.init 0).2.1.events.map fun e => (e.name, e.start, e.stop, e.enclosing))
        = [("mark", 10, 10, some 0), ("inner", 10, 30, some 0), ("outer", 10, 30, none)] ∧
      Leaves (fun _ w _ => Nested w) (fun e w _ => Nested w ∧ ∃ n, (demoEnv n).result = .error e)
        (exec demoCode demoEnv World.init 0) := by
  refine ⟨by rfl, trace_nests ?_ ?_ demoCode⟩
  · intro n m hnm
    show (if n < 4 then (10 : UInt64) else 30).toNat ≤ (if m < 4 then (10 : UInt64) else 30).toNat
    split <;> split
    · exact Nat.le_refl _
    · decide
    · omega
    · exact Nat.le_refl _
  · intro n
    rfl

end Catkit2.L4.TraceIntervals
