import Catkit2.L4Testbed.ServiceRun

/-!
# When a service serves requests (catkit_core/Service.cpp, catkit_core/Server.cpp)

`Run` starts the server after `Open` has returned and before it calls `Main`, and stops it
after `Main`: `Server::Stop` sets a flag and joins the thread of the server, which handles
one request after the other. So handlers run beside `Main`, before it and after it, but
never beside `Open` or `Close`.

The service runs `ServiceRun`, with the server in place. `Open`, `Main`, the handlers and
`Close` make any accesses to the service's object (`σ`), one a step. A message that has not
five frames is ignored, an unknown request has a handler that makes no access, and a
handler that throws a `std::exception` has returned. What throws in the thread of the
server outside of handlers ends the process, and no step is made. A request counts as
answered when its reply is handed to the socket; what the socket has not sent when it is
closed is dropped.

* `inv_step`: which part of the service can make an access when.
* `served_between`: accesses of handlers come after those of `Open` and before those of
  `Close`, and requests are answered in their order, all of them before `Close`.
* `handlers_rely`: what `Open` establishes, and `Main` and the handlers keep, each of them
  finds, and `Close` too.
-/
namespace Catkit2.L4.Serving

open Catkit2.L4.ServiceRun

variable {σ ρ : Type}

/-! ## The server -/

/-- mirrors catkit_core/Server.cpp:52-140 -/
inductive ServerAt (ρ : Type) where
  | unstarted
  | test
  | receive
  | handling (request : ρ)
  | replying (request : ρ)
  | ended

namespace ServerAt

/-- The thread of the server runs. -/
def active : ServerAt ρ → Bool
  | .unstarted | .ended => false
  | _ => true

/-- What was received and is not answered. -/
def inHand : ServerAt ρ → List ρ
  | .handling request | .replying request => [request]
  | _ => []

theorem inHand_of_idle {s : ServerAt ρ} (h : s.active = false) : s.inHand = [] := by
  cases s <;> simp_all [active, inHand]

end ServerAt

/-- What comes in: a request of five frames, or a message that is none. -/
inductive Message (ρ : Type) where
  | request (request : ρ)
  | malformed (frames : Nat) (h : frames ≠ 5)

/-- An access to the service's object. -/
inductive Event (ρ : Type) where
  | Open
  | Main
  | handle (request : ρ)
  | Close

/-- `received` are requests, `answered` those whose reply was handed to the socket, and
`late` those that were received after `Stop` set the flag of the server. -/
structure World (σ ρ : Type) where
  service : ServiceRun.State
  server : ServerAt ρ
  serverShouldShutDown : Bool
  object : σ
  log : List (Event ρ)
  received : List ρ
  answered : List ρ
  late : List ρ

inductive Step (σ ρ : Type) where
  | service (l : ServiceRun.Step)
  | start
  | stop
  | Open (access : σ → σ)
  | Main (access : σ → σ)
  | Close (access : σ → σ)
  | look
  | receive (message : Option (Message ρ))
  | handle (access : σ → σ)
  | handled
  | reply

namespace World

variable (b : Behaviour)

def new (object : σ) : World σ ρ := ⟨.new, .unstarted, false, object, [], [], [], []⟩

/-- `Run` is RUNNING once the server was started, and joins it before the other threads. -/
def goesOn (w : World σ ρ) : ServiceRun.Step → Bool
  | .run _ _ =>
    match w.service.run, w.server with
    | .serving, .unstarted => false
    | .joinSafety _, .ended => true
    | .joinSafety _, _ => false
    | _, _ => true
  | _ => true

def access (w : World σ ρ) (f : σ → σ) (e : Event ρ) : World σ ρ :=
  { w with object := f w.object, log := w.log ++ [e] }

/-- mirrors catkit_core/Service.cpp:66-204 and catkit_core/Server.cpp:33-145 -/
def step (w : World σ ρ) : Step σ ρ → Option (World σ ρ)
  | .service l => if w.goesOn l then (w.service.step b l).map fun s => { w with service := s } else none
  | .start =>
    match w.service.run, w.server with
    | .serving, .unstarted => some { w with server := .test, serverShouldShutDown := false }
    | _, _ => none
  | .stop =>
    match w.service.run with
    | .joinSafety _ => some { w with serverShouldShutDown := true }
    | _ => none
  | .Open f =>
    match w.service.run with
    | .opening => some (w.access f .Open)
    | _ => none
  | .Main f =>
    match w.service.run with
    | .main => some (w.access f .Main)
    | _ => none
  | .Close f =>
    match w.service.run with
    | .closing _ => some (w.access f .Close)
    | _ => none
  | .look =>
    match w.server with
    | .test => some { w with server := if w.serverShouldShutDown then .ended else .receive }
    | _ => none
  | .receive message =>
    match w.server, message with
    | .receive, some (.request r) => some { w with
        server := .handling r, received := w.received ++ [r]
        late := if w.serverShouldShutDown then w.late ++ [r] else w.late }
    | .receive, some (.malformed _ _) => some { w with server := .test }
    | .receive, none => some { w with server := .test }  -- timed out
    | _, _ => none
  | .handle f =>
    match w.server with
    | .handling r => some (w.access f (.handle r))
    | _ => none
  | .handled =>
    match w.server with
    | .handling r => some { w with server := .replying r }
    | _ => none
  | .reply =>
    match w.server with
    | .replying r => some { w with server := .test, answered := w.answered ++ [r] }
    | _ => none

end World

def serving (b : Behaviour) (object : σ) : LTS (World σ ρ) (Step σ ρ) := .ofFn (· = .new object) (World.step b)

/-! ## How far `Run` is -/

section

variable {b : Behaviour} {s s' : ServiceRun.State}

def stage : RunAt → Nat
  | .check => 0
  | .preCheck => 1
  | .opening => 2
  | .opened => 3
  | .beat => 4
  | .spawnSafety => 5
  | .spawnHeartbeat => 6
  | .serving => 7
  | .main => 8
  | .stop _ => 9
  | .joinSafety _ => 10
  | .joinHeartbeat _ => 11
  | .joined _ => 12
  | .closing _ => 13
  | .closed _ => 14
  | .lastBeat => 15
  | .returned => 16

/-- `Run` goes to the next stage, or returns before `Open` has. -/
theorem runStep_stage {safe : Bool} {timestamp : UInt64} (hs : s.runStep b safe timestamp = some s') :
    (stage s'.run = stage s.run + 1 ∧ (s.run = .opening → b.Open = .returns)) ∨
      (s'.run = .returned ∧ stage s.run < 3) := by
  unfold State.runStep at hs
  split at hs <;> rename_i hrun <;> (try split at hs) <;> cases hs <;> simp_all [stage, State.write]

theorem step_stage {l : ServiceRun.Step} (hs : s.step b l = some s') : stage s.run ≤ stage s'.run := by
  obtain ⟨safe, timestamp, -, hrun⟩ | ⟨hrun, -, -⟩ := step_run_or_thread hs
  · obtain ⟨h, -⟩ | ⟨h, hlt⟩ := runStep_stage hrun
    · omega
    · rw [h]
      exact Nat.le_of_lt (Nat.lt_trans hlt (by decide))
  · rw [hrun]

theorem eq_opening {run : RunAt} (h : stage run = 2) : run = .opening := by
  cases run <;> first | rfl | cases h

theorem eq_joinSafety {run : RunAt} (h : stage run = 10) : ∃ crashed, run = .joinSafety crashed := by
  cases run with
  | joinSafety crashed => exact ⟨crashed, rfl⟩
  | _ => cases h

/-- From `Open`, `Run` goes on only if it returned. -/
theorem step_opened {l : ServiceRun.Step} (hs : s.step b l = some s')
    (h : 3 ≤ stage s.run → b.Open = .returns ∨ s.run = .returned) (h' : 3 ≤ stage s'.run) :
    b.Open = .returns ∨ s'.run = .returned := by
  obtain ⟨safe, timestamp, -, hrun⟩ | ⟨hrun, -, -⟩ := step_run_or_thread hs
  · obtain ⟨hstage, hopen⟩ | ⟨hreturned, -⟩ := runStep_stage hrun
    · obtain hlt | hge := Nat.lt_or_ge (stage s.run) 3
      · exact .inl (hopen (eq_opening (by omega)))
      · obtain hopen | hreturned := h hge
        · exact .inl hopen
        · rw [State.runStep, hreturned] at hrun
          cases hrun
    · exact .inr hreturned
  · rw [hrun] at h' ⊢
    exact h h'

end

/-! ## The invariant -/

/-- The log is that of `Open`, then that of `Main` and the handlers, then that of `Close`. -/
structure Between (b : Behaviour) (w : World σ ρ) (opens serves closes : List (Event ρ)) : Prop where
  log : w.log = opens ++ serves ++ closes
  ofOpen : ∀ e ∈ opens, e = .Open
  ofServing : ∀ e ∈ serves, e = .Main ∨ ∃ r, e = .handle r
  ofClose : ∀ e ∈ closes, e = .Close
  began : serves ≠ [] → b.Open = .returns ∧ 3 ≤ stage w.service.run
  closing : closes ≠ [] → 13 ≤ stage w.service.run

structure Inv (b : Behaviour) (w : World σ ρ) : Prop where
  between : ∃ opens serves closes, Between b w opens serves closes
  opened : 3 ≤ stage w.service.run → b.Open = .returns ∨ w.service.run = .returned
  serves : w.server.active = true → 7 ≤ stage w.service.run ∧ stage w.service.run ≤ 10
  answers : w.received = w.answered ++ w.server.inHand
  late : w.late.length ≤ 1 ∧
    (w.serverShouldShutDown = false ∨ w.server = .receive ∨ w.server = .unstarted → w.late = [])

variable {b : Behaviour} {w w' : World σ ρ}

theorem inv_new (object : σ) : Inv b (.new object : World σ ρ) where
  between := ⟨[], [], [], rfl, by simp, by simp, by simp, by simp, by simp⟩
  opened h := absurd (show 3 ≤ 0 from h) (by decide)
  serves h := by cases h
  answers := rfl
  late := ⟨Nat.zero_le 1, fun _ => rfl⟩

/-- Where `Run` can go while the server runs. -/
theorem goesOn_active {safe : Bool} {timestamp : UInt64} (hgoes : w.goesOn (.run safe timestamp) = true)
    (hactive : w.server.active = true) : stage w.service.run ≠ 10 := by
  intro h
  obtain ⟨crashed, hrun⟩ := eq_joinSafety h
  unfold World.goesOn at hgoes
  rw [hrun] at hgoes
  cases hat : w.server <;> simp_all [ServerAt.active]

theorem inv_service (hi : Inv b w) {l : ServiceRun.Step} (hs : w.step b (.service l) = some w') : Inv b w' := by
  simp only [World.step] at hs
  split at hs
  · rename_i hgoes
    obtain ⟨s', hstep, rfl⟩ := Option.map_eq_some_iff.mp hs
    clear hs
    have hmono := step_stage hstep
    obtain ⟨opens, serves, closes, hb⟩ := hi.between
    refine ⟨⟨opens, serves, closes, hb.log, hb.ofOpen, hb.ofServing, hb.ofClose,
      fun h => ⟨(hb.began h).1, Nat.le_trans (hb.began h).2 hmono⟩, fun h => Nat.le_trans (hb.closing h) hmono⟩,
      step_opened hstep hi.opened, fun hactive => ?_, hi.answers, hi.late⟩
    obtain ⟨hge, hle⟩ := hi.serves hactive
    obtain ⟨safe, timestamp, rfl, hrun⟩ | ⟨hrun, -, -⟩ := step_run_or_thread hstep
    · have hne := goesOn_active hgoes hactive
      obtain ⟨hstage, -⟩ | ⟨-, hlt⟩ := runStep_stage hrun
      · exact ⟨Nat.le_trans hge hmono, by show stage s'.run ≤ 10; omega⟩
      · omega
    · show 7 ≤ stage s'.run ∧ stage s'.run ≤ 10
      rw [hrun]
      exact ⟨hge, hle⟩
  · cases hs

/-- An access of `Open`. -/
theorem inv_open (hi : Inv b w) {f : σ → σ} (hs : w.step b (.Open f) = some w') : Inv b w' := by
  simp only [World.step] at hs
  split at hs <;> cases hs
  rename_i hrun
  obtain ⟨opens, serves, closes, hb⟩ := hi.between
  have hserves : serves = [] := by
    by_contra hne
    have := (hb.began hne).2
    rw [hrun] at this
    exact absurd this (by decide)
  have hcloses : closes = [] := by
    by_contra hne
    have := hb.closing hne
    rw [hrun] at this
    exact absurd this (by decide)
  subst hserves hcloses
  refine ⟨⟨opens ++ [.Open], [], [], ?_, ?_, by simp, by simp, by simp, by simp⟩, hi.opened, hi.serves, hi.answers,
    hi.late⟩
  · simp [World.access, hb.log]
  · intro e he
    obtain he | he := List.mem_append.mp he
    · exact hb.ofOpen e he
    · simpa using he

/-- An access while requests are served. -/
theorem inv_serve (hi : Inv b w) {f : σ → σ} {e : Event ρ} (he : e = .Main ∨ ∃ r, e = .handle r)
    (hge : 7 ≤ stage w.service.run) (hle : stage w.service.run ≤ 10) : Inv b (w.access f e) := by
  obtain ⟨opens, serves, closes, hb⟩ := hi.between
  have hcloses : closes = [] := by
    by_contra hne
    have := hb.closing hne
    omega
  have hopen : b.Open = .returns := by
    obtain hopen | hreturned := hi.opened (by omega)
    · exact hopen
    · rw [hreturned] at hle
      exact absurd hle (by decide)
  subst hcloses
  refine ⟨⟨opens, serves ++ [e], [], ?_, hb.ofOpen, ?_, by simp, fun _ => ⟨hopen, by show 3 ≤ stage w.service.run; omega⟩,
    by simp⟩, hi.opened, hi.serves, hi.answers, hi.late⟩
  · simp [World.access, hb.log]
  · intro e' he'
    obtain he' | he' := List.mem_append.mp he'
    · exact hb.ofServing e' he'
    · rw [List.mem_singleton.mp he']
      exact he

/-- An access of `Close`. -/
theorem inv_close (hi : Inv b w) {f : σ → σ} (hs : w.step b (.Close f) = some w') : Inv b w' := by
  simp only [World.step] at hs
  split at hs <;> cases hs
  rename_i crashed hrun
  obtain ⟨opens, serves, closes, hb⟩ := hi.between
  refine ⟨⟨opens, serves, closes ++ [.Close], ?_, hb.ofOpen, hb.ofServing, ?_, hb.began, fun _ => ?_⟩, hi.opened,
    hi.serves, hi.answers, hi.late⟩
  · simp [World.access, hb.log]
  · intro e he
    obtain he | he := List.mem_append.mp he
    · exact hb.ofClose e he
    · simpa using he
  · show 13 ≤ stage w.service.run
    rw [hrun]
    exact Nat.le_refl 13

/-- A step of the server's thread that is no access. -/
theorem Inv.server (hi : Inv b w) (hservice : w'.service = w.service) (hlog : w'.log = w.log)
    (hserves : w'.server.active = true → 7 ≤ stage w.service.run ∧ stage w.service.run ≤ 10)
    (hanswers : w'.received = w'.answered ++ w'.server.inHand)
    (hlate : w'.late.length ≤ 1 ∧
      (w'.serverShouldShutDown = false ∨ w'.server = .receive ∨ w'.server = .unstarted → w'.late = [])) : Inv b w' := by
  obtain ⟨opens, serves, closes, hb⟩ := hi.between
  refine ⟨⟨opens, serves, closes, hlog.trans hb.log, hb.ofOpen, hb.ofServing, hb.ofClose, ?_, ?_⟩, ?_, ?_, hanswers, hlate⟩
  · rw [hservice]
    exact hb.began
  · rw [hservice]
    exact hb.closing
  · rw [hservice]
    exact hi.opened
  · rw [hservice]
    exact hserves

theorem inv_start (hi : Inv b w) (hs : w.step b .start = some w') : Inv b w' := by
  simp only [World.step] at hs
  split at hs <;> cases hs
  rename_i hrun hunstarted
  have hanswers := hi.answers
  rw [hunstarted] at hanswers
  have hnone : w.late = [] := hi.late.2 (.inr (.inr hunstarted))
  refine hi.server rfl rfl (fun _ => by rw [hrun]; decide) hanswers ⟨hi.late.1, fun _ => hnone⟩

theorem inv_look (hi : Inv b w) (hs : w.step b .look = some w') : Inv b w' := by
  simp only [World.step] at hs
  split at hs <;> cases hs
  rename_i htest
  have hserves := hi.serves (by rw [htest]; rfl)
  have hanswers := hi.answers
  rw [htest] at hanswers
  cases hflag : w.serverShouldShutDown with
  | true =>
    refine hi.server rfl rfl (fun _ => hserves) hanswers ⟨hi.late.1, fun h => ?_⟩
    simp at h
  | false => exact hi.server rfl rfl (fun _ => hserves) hanswers ⟨hi.late.1, fun _ => hi.late.2 (.inl hflag)⟩

/-- The server goes back to its test, with nothing received. -/
theorem Inv.ignore (hi : Inv b w) (hreceive : w.server = .receive) : Inv b { w with server := .test } := by
  have hserves := hi.serves (by rw [hreceive]; rfl)
  have hnone : w.late = [] := hi.late.2 (.inr (.inl hreceive))
  have hanswers := hi.answers
  rw [hreceive] at hanswers
  exact hi.server rfl rfl (fun _ => hserves) hanswers ⟨hi.late.1, fun _ => hnone⟩

theorem inv_receive (hi : Inv b w) {message : Option (Message ρ)} (hs : w.step b (.receive message) = some w') :
    Inv b w' := by
  simp only [World.step] at hs
  split at hs <;> cases hs
  · rename_i r hreceive
    have hserves := hi.serves (by rw [hreceive]; rfl)
    have hnone : w.late = [] := hi.late.2 (.inr (.inl hreceive))
    have hanswers : w.received = w.answered := by
      have := hi.answers
      rw [hreceive] at this
      simpa [ServerAt.inHand] using this
    refine hi.server rfl rfl (fun _ => hserves) (by simp [hanswers, ServerAt.inHand]) ?_
    cases hflag : w.serverShouldShutDown <;> simp [hnone]
  · exact hi.ignore ‹_›
  · exact hi.ignore ‹_›

theorem inv_handled (hi : Inv b w) (hs : w.step b .handled = some w') : Inv b w' := by
  simp only [World.step] at hs
  split at hs <;> cases hs
  rename_i r hhandling
  have hserves := hi.serves (by rw [hhandling]; rfl)
  have hanswers := hi.answers
  rw [hhandling] at hanswers
  refine hi.server rfl rfl (fun _ => hserves) hanswers ⟨hi.late.1, fun h => hi.late.2 (.inl ?_)⟩
  simpa using h

theorem inv_reply (hi : Inv b w) (hs : w.step b .reply = some w') : Inv b w' := by
  simp only [World.step] at hs
  split at hs <;> cases hs
  rename_i r hreplying
  have hserves := hi.serves (by rw [hreplying]; rfl)
  have hanswers := hi.answers
  rw [hreplying] at hanswers
  refine hi.server rfl rfl (fun _ => hserves) ?_ ⟨hi.late.1, fun h => hi.late.2 (.inl ?_)⟩
  · simpa [ServerAt.inHand] using hanswers
  · simpa using h

theorem inv_step (hi : Inv b w) {l : Step σ ρ} (hs : w.step b l = some w') : Inv b w' := by
  cases l with
  | service l => exact inv_service hi hs
  | start => exact inv_start hi hs
  | stop =>
    simp only [World.step] at hs
    split at hs <;> cases hs
    refine hi.server rfl rfl hi.serves hi.answers ⟨hi.late.1, fun h => hi.late.2 (.inr ?_)⟩
    simpa using h
  | Open f => exact inv_open hi hs
  | Main f =>
    simp only [World.step] at hs
    split at hs <;> cases hs
    rename_i hrun
    exact inv_serve hi (.inl rfl) (by rw [hrun]; decide) (by rw [hrun]; decide)
  | Close f => exact inv_close hi hs
  | look => exact inv_look hi hs
  | receive message => exact inv_receive hi hs
  | handle f =>
    simp only [World.step] at hs
    split at hs <;> cases hs
    rename_i r hhandling
    obtain ⟨hge, hle⟩ := hi.serves (by rw [hhandling]; rfl)
    exact inv_serve hi (.inr ⟨r, rfl⟩) hge hle
  | handled => exact inv_handled hi hs
  | reply => exact inv_reply hi hs

theorem inv_reachable {object : σ} (h : (serving b object).Reachable w) : Inv b w := by
  have hind : (serving (ρ := ρ) b object).Inductive (Inv b) := by
    refine ⟨fun w hw => ?_, fun w l w' hi hs => inv_step hi hs⟩
    rw [show w = .new object from hw]
    exact inv_new object
  exact hind.reachable w h

/-! ## Served between `Open` and `Close` -/

/-- The accesses of handlers and of `Main` come after all those of `Open`, which returned, and
before all those of `Close`. Replies are handed to the socket in the order of the requests;
every request that was received is answered so before `Close`, at most one of them received
after the server was told to stop. -/
theorem served_between {object : σ} (h : (serving b object).Reachable w) :
    (∃ opens serves closes, Between b w opens serves closes) ∧ w.answered <+: w.received ∧
      (11 ≤ stage w.service.run → w.answered = w.received) ∧ w.late.length ≤ 1 := by
  have hi := inv_reachable h
  refine ⟨hi.between, ⟨_, hi.answers.symm⟩, fun hstage => ?_, hi.late.1⟩
  have hidle : w.server.active = false := by
    by_contra hactive
    have := (hi.serves (by simpa using hactive)).2
    omega
  rw [hi.answers, ServerAt.inHand_of_idle hidle, List.append_nil]

/-- A request that comes after the server was told to stop is answered; a message of three
frames is not. -/
theorem served_between_stop : ∃ w : World Unit String, w.late = ["get_info"] ∧ w.answered = w.received := by
  obtain ⟨w, hw, hrun, hlate⟩ : ∃ w : World Unit String,
      LTS.exec (World.step ⟨some true, .returns, .returns, .returns⟩) (.new ())
        (List.replicate 7 (.service (.run true 1)) ++ [.start] ++ List.replicate 3 (.service (.run true 1)) ++
          [.look, .receive (some (.malformed 3 (by decide))), .look, .stop, .receive (some (.request "get_info"))] ++
          [.handle id, .handled, .reply, .look, .service (.safety true), .service (.run true 1)]) = some w ∧
        w.service.run = .joinHeartbeat false ∧ w.late = ["get_info"] :=
    ⟨_, rfl, rfl, rfl⟩
  have hreach : (serving ⟨some true, .returns, .returns, .returns⟩ ()).Reachable w := .of_exec rfl hw
  exact ⟨w, hlate, (served_between hreach).2.2.1 (by rw [hrun]; exact Nat.le_refl 11)⟩

/-! ## What handlers rely on -/

/-- The accesses of `Main` and of handlers keep `P`, which is there when `Open` returns. -/
def Keeps (b : Behaviour) (P : σ → Prop) (w : World σ ρ) : Step σ ρ → Prop
  | .service (.run _ _) => stage w.service.run = stage .opening → b.Open = .returns → P w.object
  | .Main f | .handle f => P w.object → P (f w.object)
  | _ => True

instance (b : Behaviour) (P : σ → Prop) [DecidablePred P] (w : World σ ρ) : (l : Step σ ρ) → Decidable (Keeps b P w l)
  | .service (.run _ _) => inferInstanceAs (Decidable (_ → _ → _))
  | .Main _ | .handle _ => inferInstanceAs (Decidable (_ → _))
  | .service (.safety _) | .service (.heartbeat _ _) | .service .shutDown | .start | .stop | .Open _ | .Close _ | .look
  | .receive _ | .handled | .reply => .isTrue trivial

/-- From the return of `Open` to the call of `Close`. -/
def Held (P : σ → Prop) (w : World σ ρ) : Prop :=
  3 ≤ stage w.service.run → stage w.service.run ≤ 12 → P w.object

theorem held_step {P : σ → Prop} (hp : Held P w) {l : Step σ ρ} (hk : Keeps b P w l)
    (hs : w.step b l = some w') : Held P w' := by
  cases l with
  | service l =>
    simp only [World.step] at hs
    split at hs
    · obtain ⟨s', hstep, rfl⟩ := Option.map_eq_some_iff.mp hs
      intro hge hle
      show P w.object
      obtain ⟨safe, timestamp, rfl, hrun⟩ | ⟨hrun, -, -⟩ := step_run_or_thread hstep
      · obtain ⟨hstage, hopen⟩ | ⟨hreturned, -⟩ := runStep_stage hrun
        · replace hge : 3 ≤ stage s'.run := hge
          replace hle : stage s'.run ≤ 12 := hle
          obtain hlt | hge' := Nat.lt_or_ge (stage w.service.run) 3
          · have hopening : stage w.service.run = 2 := by omega
            exact hk hopening (hopen (eq_opening hopening))
          · exact hp hge' (by omega)
        · replace hle : stage s'.run ≤ 12 := hle
          rw [hreturned] at hle
          exact absurd hle (by decide)
      · replace hge : 3 ≤ stage s'.run := hge
        replace hle : stage s'.run ≤ 12 := hle
        rw [hrun] at hge hle
        exact hp hge hle
    · cases hs
  | Open f =>
    simp only [World.step] at hs
    split at hs <;> cases hs
    rename_i hrun
    intro hge
    replace hge : 3 ≤ stage w.service.run := hge
    rw [hrun] at hge
    exact absurd hge (by decide)
  | Close f =>
    simp only [World.step] at hs
    split at hs <;> cases hs
    rename_i crashed hrun
    intro _ hle
    replace hle : stage w.service.run ≤ 12 := hle
    rw [hrun] at hle
    exact absurd (show 13 ≤ 12 from hle) (by decide)
  | Main f =>
    simp only [World.step] at hs
    split at hs <;> cases hs
    exact fun hge hle => hk (hp hge hle)
  | handle f =>
    simp only [World.step] at hs
    split at hs <;> cases hs
    exact fun hge hle => hk (hp hge hle)
  | start | stop | look | receive message | handled | reply =>
    simp only [World.step] at hs
    split at hs <;> cases hs <;> exact hp

/-- What `Open` has established when it returns, every handler finds at each of its accesses,
`Main` finds and `Close` finds, if `Main` and the handlers keep it. -/
theorem handlers_rely {object : σ} {P : σ → Prop} (h : ((serving b object).restrict (Keeps b P)).Reachable w) :
    ((∃ r, w.server = .handling r) ∨ w.service.run = .main ∨ (∃ crashed, w.service.run = .joined crashed)) →
      P w.object := by
  have hind : ((serving (ρ := ρ) b object).restrict (Keeps b P)).Inductive fun w => Inv b w ∧ Held P w := by
    refine ⟨fun w hw => ?_, fun w l w' hw hs => ⟨inv_step hw.1 hs.2, held_step hw.2 hs.1 hs.2⟩⟩
    rw [show w = .new object from hw]
    exact ⟨inv_new object, fun h => absurd (show 3 ≤ 0 from h) (by decide)⟩
  obtain ⟨hi, hp⟩ := hind.reachable w h
  rintro (⟨r, hr⟩ | hmain | ⟨crashed, hjoined⟩)
  · obtain ⟨hge, hle⟩ := hi.serves (by rw [hr]; rfl)
    exact hp (by omega) (by omega)
  · unfold Held at hp
    rw [hmain] at hp
    exact hp (by decide) (by decide)
  · unfold Held at hp
    rw [hjoined] at hp
    exact hp (Nat.le_add_left 3 9) (Nat.le_refl 12)

/-- `Open` makes a device, and a request comes before `Main` is called. -/
theorem handlers_rely_early : ∃ w : World (Option Nat) String, w.server = .handling "get_info" ∧
    w.service.run = .serving ∧ w.object.isSome = true := by
  obtain ⟨w, hw, hserver, hrun⟩ : ∃ w : World (Option Nat) String,
      LTS.exec (LTS.guarded (Keeps ⟨some true, .returns, .returns, .returns⟩ (·.isSome = true))
          (World.step ⟨some true, .returns, .returns, .returns⟩)) (.new none)
        (List.replicate 2 (.service (.run true 1)) ++ [.Open fun _ => some 0] ++
          List.replicate 5 (.service (.run true 1)) ++
            [.start, .look, .receive (some (.request "get_info")), .handle (Option.map (· + 1))]) = some w ∧
        w.server = .handling "get_info" ∧ w.service.run = .serving :=
    ⟨_, rfl, rfl, rfl⟩
  exact ⟨w, hserver, hrun, handlers_rely (.of_guarded rfl hw) (.inl ⟨_, hserver⟩)⟩

end Catkit2.L4.Serving
