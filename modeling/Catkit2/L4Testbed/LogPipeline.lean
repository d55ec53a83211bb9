import Catkit2.L3Service.MessageLoop

/-!
# The way of a log message (LogForwarder.cpp, testbed/distributor.py, testbed/logging.py)

A process has a log forwarder, whose loop sends to the distributor of the testbed. The
distributor has one thread, which takes a message of any process and publishes it to the
observers that have subscribed. An observer has a thread that takes what was published and
handles it.

A forwarder is the loop of `MessageLoop`, with any number of threads that log. One that runs
experiments one after the other has a forwarder for each; there a process (`π`) stands for
one of them, and order is that of one forwarder. What 0MQ does:
a connection keeps the order of its messages; a process that exits leaves some first
part of what it has sent and was not received (the linger period is 0); a publisher drops
messages for an observer that does not keep up, and sends none to one that has not yet
subscribed.

* `inv_step`: what is where keeps its order.
* `observed_in_order`: every observer takes the entries of each process in the order in
  which they were queued, none of them twice, and all observers in one common order.
* `observed_all`: where nothing is dropped, an observer gets all that is published from its
  subscription on and nothing else, and what was queued is published or on its way.
-/
namespace Catkit2.L4.LogPipeline

open Catkit2.L3 Function

variable {π τ ω ε : Type}

/-! ## The parties -/

/-- mirrors catkit2/testbed/distributor.py:53-86 -/
inductive DistributorAt (μ : Type) where
  | test
  | receive
  | publish (message : μ)
  | ended

/-- mirrors catkit2/testbed/logging.py:54-77 -/
inductive ObserverAt (μ : Type) where
  | test
  | receive
  | handle (message : μ)
  | ended

/-- `subscribed` is what had been published when the publisher had its subscription, `pipe`
what was published to it and not taken, `taken` what it took. -/
structure Observer (μ : Type) where
  place : ObserverAt μ
  shutdown_flag : Bool
  subscribed : Option (List μ)
  pipe : List μ
  taken : List μ

/-- A message is an entry with the process that sent it. `sockets` is what the processes
have sent and the distributor has not received. -/
structure World (π τ ω ε : Type) where
  forwarder : π → MessageLoop.State τ ε
  exited : π → Bool
  sockets : π → List ε
  distributor : DistributorAt (π × ε)
  shutdown_flag : Bool
  published : List (π × ε)
  observer : ω → Observer (π × ε)

inductive ObserverStep where
  | subscribe
  | look
  | take
  | timeOut
  | handled
  | raises
  | stop

inductive Step (π τ ω ε : Type) where
  | forward (process : π) (l : MessageLoop.Action τ ε)
  | exit (process : π) (kept : Nat)
  | look
  | receive (process : π)
  | timeOut
  | publish (drops : ω → Bool)
  | raises
  | stop
  | observe (o : ω) (l : ObserverStep)

namespace Observer

variable {μ : Type}

def new : Observer μ := ⟨.test, false, none, [], []⟩

/-- `message` is published to an observer. -/
def deliver (o : Observer μ) (message : μ) (drops : Bool) : Observer μ :=
  if o.subscribed.isSome && !drops then { o with pipe := o.pipe ++ [message] } else o

def step (published : List μ) (o : Observer μ) : ObserverStep → Option (Observer μ)
  | .subscribe => some { o with subscribed := o.subscribed.or (some published) }
  | .look =>
    match o.place with
    | .test => some { o with place := if o.shutdown_flag then .ended else .receive }
    | _ => none
  | .take =>
    match o.place, o.pipe with
    | .receive, m :: pipe => some { o with place := .handle m, pipe := pipe, taken := o.taken ++ [m] }
    | _, _ => none
  | .timeOut =>
    match o.place with
    | .receive => some { o with place := .test }
    | _ => none
  | .handled =>
    match o.place with
    | .handle _ => some { o with place := .test }
    | _ => none
  | .raises =>
    match o.place with
    | .receive | .handle _ => some { o with place := .ended }  -- nothing catches it
    | _ => none
  | .stop => some { o with shutdown_flag := true }

end Observer

/-- What an action of the forwarder sends. -/
def sent (s : MessageLoop.State τ ε) : MessageLoop.Action τ ε → List ε
  | .sendResult true => MessageLoop.inHand s.consumer
  | _ => []

namespace World

variable [DecidableEq π] [DecidableEq τ] [DecidableEq ω]

def new : World π τ ω ε where
  forwarder _ := .initial
  exited _ := false
  sockets _ := []
  distributor := .test
  shutdown_flag := false
  published := []
  observer _ := .new

def step (w : World π τ ω ε) : Step π τ ω ε → Option (World π τ ω ε)
  | .forward p l =>
    if w.exited p then none
    else ((w.forwarder p).step MessageLoop.State.logRetry l).map fun s => { w with
      forwarder := update w.forwarder p s
      sockets := update w.sockets p (w.sockets p ++ sent (w.forwarder p) l) }
  | .exit p kept => some { w with
      exited := update w.exited p true
      sockets := update w.sockets p ((w.sockets p).take kept) }
  | .look =>
    match w.distributor with
    | .test => some { w with distributor := if w.shutdown_flag then .ended else .receive }
    | _ => none
  | .receive p =>
    match w.distributor, w.sockets p with
    | .receive, m :: rest => some { w with
        distributor := .publish (p, m), sockets := update w.sockets p rest }
    | _, _ => none
  | .timeOut =>
    match w.distributor with
    | .receive => some { w with distributor := .test }
    | _ => none
  | .publish drops =>
    match w.distributor with
    | .publish m => some { w with
        -- what the callback raises is printed
        distributor := .test, published := w.published ++ [m]
        observer := fun o => (w.observer o).deliver m (drops o) }
    | _ => none
  | .raises =>
    match w.distributor with
    | .publish _ => some { w with distributor := .test }  -- so is what the socket raises
    | _ => none
  | .stop => some { w with shutdown_flag := true }
  | .observe o l => ((w.observer o).step w.published l).map fun s => { w with observer := update w.observer o s }

end World

def pipeline (π τ ω ε : Type) [DecidableEq π] [DecidableEq τ] [DecidableEq ω] :
    LTS (World π τ ω ε) (Step π τ ω ε) :=
  .ofFn (· = .new) World.step

/-! ## The entries of a process -/

section

variable [DecidableEq π]

/-- The entries that `p` sent. -/
def entriesOf (p : π) (l : List (π × ε)) : List ε :=
  l.filterMap fun m => if m.1 = p then some m.2 else none

@[simp] theorem entriesOf_nil (p : π) : entriesOf p ([] : List (π × ε)) = [] := rfl

@[simp] theorem entriesOf_append (p : π) (l l' : List (π × ε)) :
    entriesOf p (l ++ l') = entriesOf p l ++ entriesOf p l' := List.filterMap_append

@[simp] theorem entriesOf_self (p : π) (m : ε) : entriesOf p [(p, m)] = [m] := by simp [entriesOf]

theorem entriesOf_of_ne {p q : π} (h : q ≠ p) (m : ε) : entriesOf p [(q, m)] = [] := by simp [entriesOf, h]

theorem entriesOf_sublist {p : π} {l l' : List (π × ε)} (h : l.Sublist l') : (entriesOf p l).Sublist (entriesOf p l') :=
  h.filterMap _

end

/-- What the distributor has in its hands. -/
def DistributorAt.inHand {μ : Type} : DistributorAt μ → List μ
  | .publish m => [m]
  | _ => []

/-! ## The observers -/

namespace Observer

variable {μ : Type} {published : List μ} {o o' : Observer μ}

/-- What it has taken and what is to be taken. -/
def all (o : Observer μ) : List μ := o.taken ++ o.pipe

/-- Nothing but a publication gives an observer something. -/
theorem step_all {l : ObserverStep} (hs : o.step published l = some o') : o'.all = o.all := by
  cases l with
  | subscribe | stop =>
    cases hs
    rfl
  | look | timeOut | handled | raises =>
    simp only [step] at hs
    split at hs <;> cases hs <;> rfl
  | take =>
    simp only [step] at hs
    split at hs <;> cases hs
    rename_i m pipe _ hpipe
    simp [all, hpipe]

/-- An observer stays subscribed, and subscribes to what is published from now on. -/
theorem step_subscribed {l : ObserverStep} (hs : o.step published l = some o') :
    o'.subscribed = o.subscribed ∨ (o.subscribed = none ∧ o'.subscribed = some published) := by
  cases l with
  | subscribe =>
    cases hs
    cases hsub : o.subscribed with
    | none => exact .inr ⟨rfl, rfl⟩
    | some before => exact .inl rfl
  | stop =>
    cases hs
    exact .inl rfl
  | look | timeOut | handled | raises | take =>
    simp only [step] at hs
    split at hs <;> cases hs <;> exact .inl rfl

theorem deliver_all (o : Observer μ) (m : μ) (drops : Bool) :
    (o.deliver m drops).all = if o.subscribed.isSome && !drops then o.all ++ [m] else o.all := by
  unfold deliver
  split <;> simp [all]

end Observer

/-! ## The invariant -/

variable [DecidableEq π]

/-- Messages keep their order from one place to the next. -/
structure Inv (w : World π τ ω ε) : Prop where
  forwarder : ∀ p, MessageLoop.Inv (w.forwarder p)
  sent : ∀ p, (entriesOf p w.published ++ (entriesOf p w.distributor.inHand ++ w.sockets p)).Sublist
    (w.forwarder p).delivered
  observed : ∀ o, (w.observer o).all.Sublist w.published

theorem inv_new : Inv (.new : World π τ ω ε) where
  forwarder _ := MessageLoop.inv_initial
  sent _ := .slnil
  observed _ := .slnil

section

variable {s s' : MessageLoop.State τ ε}

@[simp] theorem delivered_goto (s : MessageLoop.State τ ε) (pc : MessageLoop.Pc ε) :
    (s.goto pc).delivered = s.delivered := rfl

/-- A forwarder delivers what it sends. -/
theorem delivered_step [DecidableEq τ] {l : MessageLoop.Action τ ε}
    (hs : s.step MessageLoop.State.logRetry l = some s') : s'.delivered = s.delivered ++ sent s l := by
  cases l with
  | sendResult delivered =>
    simp only [MessageLoop.State.step] at hs
    split at hs <;> cases hs
    rename_i e hsend
    cases delivered <;> simp [sent, hsend, MessageLoop.inHand]
  | consumer =>
    obtain ⟨pc, -, rfl⟩ | ⟨-, -, rfl⟩ | ⟨pc, -, rfl⟩ | ⟨e, queue, -, -, rfl⟩ := MessageLoop.consumerStep_cases hs
    all_goals exact (List.append_nil _).symm
  | _ =>
    simp only [MessageLoop.State.step] at hs
    split at hs <;> cases hs
    all_goals exact (List.append_nil _).symm

end

variable {w w' : World π τ ω ε}

/-! ## The steps -/

/-- The distributor loses what it has in its hands, or has nothing. -/
theorem inv_distributor (hi : Inv w) {place : DistributorAt (π × ε)} (h : place.inHand = []) :
    Inv { w with distributor := place } := by
  refine ⟨hi.forwarder, fun q => ?_, hi.observed⟩
  simp only [h, entriesOf_nil, List.nil_append]
  exact ((List.sublist_append_right _ _).append_left _).trans (hi.sent q)

variable [DecidableEq τ] [DecidableEq ω]

theorem inv_forward (hi : Inv w) {p : π} {l : MessageLoop.Action τ ε} (hs : w.step (.forward p l) = some w') :
    Inv w' := by
  simp only [World.step] at hs
  split at hs
  · cases hs
  · obtain ⟨s', hstep, rfl⟩ := Option.map_eq_some_iff.mp hs
    clear hs
    refine ⟨fun q => ?_, fun q => ?_, hi.observed⟩
    · obtain rfl | hne := eq_or_ne q p
      · simp only [update_self]
        exact MessageLoop.inv_step (hi.forwarder q) (MessageLoop.logForwarder_timely (hi.forwarder q) l) hstep
      · simp only [update_of_ne hne]
        exact hi.forwarder q
    · obtain rfl | hne := eq_or_ne q p
      · simp only [update_self, delivered_step hstep]
        have := (hi.sent q).append (List.Sublist.refl (sent (w.forwarder q) l))
        simpa only [List.append_assoc] using this
      · simp only [update_of_ne hne]
        exact hi.sent q

theorem inv_exit (hi : Inv w) {p : π} {kept : Nat} (hs : w.step (.exit p kept) = some w') : Inv w' := by
  cases hs
  refine ⟨hi.forwarder, fun q => ?_, hi.observed⟩
  obtain rfl | hne := eq_or_ne q p
  · simp only [update_self]
    exact (((List.take_sublist kept _).append_left _).append_left _).trans (hi.sent q)
  · simp only [update_of_ne hne]
    exact hi.sent q

theorem inv_receive (hi : Inv w) {p : π} (hs : w.step (.receive p) = some w') : Inv w' := by
  simp only [World.step] at hs
  split at hs <;> cases hs
  rename_i m rest hreceive hsockets
  refine ⟨hi.forwarder, fun q => ?_, hi.observed⟩
  have hsent := hi.sent q
  rw [hreceive] at hsent
  obtain rfl | hne := eq_or_ne q p
  · rw [hsockets] at hsent
    simpa [DistributorAt.inHand, update_self] using hsent
  · simpa [DistributorAt.inHand, update_of_ne hne, entriesOf_of_ne hne.symm] using hsent

theorem inv_publish (hi : Inv w) {drops : ω → Bool} (hs : w.step (.publish drops) = some w') : Inv w' := by
  simp only [World.step] at hs
  split at hs <;> cases hs
  rename_i m hpublish
  refine ⟨hi.forwarder, fun q => ?_, fun o => ?_⟩
  · have hsent := hi.sent q
    rw [hpublish] at hsent
    simpa [DistributorAt.inHand] using hsent
  · simp only [Observer.deliver_all]
    split
    · exact (hi.observed o).append (List.Sublist.refl _)
    · exact (hi.observed o).trans (List.sublist_append_left _ _)

theorem inv_observe (hi : Inv w) {o : ω} {l : ObserverStep} (hs : w.step (.observe o l) = some w') : Inv w' := by
  obtain ⟨s', hstep, rfl⟩ := Option.map_eq_some_iff.mp hs
  refine ⟨hi.forwarder, hi.sent, fun o' => ?_⟩
  obtain rfl | hne := eq_or_ne o' o
  · simp only [update_self, Observer.step_all hstep]
    exact hi.observed o'
  · simp only [update_of_ne hne]
    exact hi.observed o'

theorem inv_step (hi : Inv w) {l : Step π τ ω ε} (hs : w.step l = some w') : Inv w' := by
  cases l with
  | forward p l => exact inv_forward hi hs
  | exit p kept => exact inv_exit hi hs
  | receive p => exact inv_receive hi hs
  | publish drops => exact inv_publish hi hs
  | observe o l => exact inv_observe hi hs
  | stop =>
    cases hs
    exact ⟨hi.forwarder, hi.sent, hi.observed⟩
  | look =>
    simp only [World.step] at hs
    split at hs <;> cases hs
    exact inv_distributor hi (by split <;> rfl)
  | timeOut | raises =>
    simp only [World.step] at hs
    split at hs <;> cases hs
    exact inv_distributor hi rfl

theorem inv_reachable (h : (pipeline π τ ω ε).Reachable w) : Inv w := by
  have hind : (pipeline π τ ω ε).Inductive Inv :=
    ⟨fun w hw => by rw [show w = .new from hw]; exact inv_new, fun _ _ _ hi hs => inv_step hi hs⟩
  exact hind.reachable w h

/-! ## Order -/

/-- Whatever is dropped, and whoever exits: the entries of a process are published in the order
in which they were queued, none twice, and every observer takes what it takes in the order in
which it was published. -/
theorem observed_in_order (h : (pipeline π τ ω ε).Reachable w) :
    (∀ o, (w.observer o).taken.Sublist w.published) ∧
      (∀ p, (entriesOf p w.published).Sublist (w.forwarder p).enqueued) ∧
        ∀ o p, (entriesOf p (w.observer o).taken).Sublist (w.forwarder p).enqueued := by
  have hi := inv_reachable h
  have htaken : ∀ o, (w.observer o).taken.Sublist w.published := fun o =>
    (List.sublist_append_left _ _).trans (hi.observed o)
  have hpublished : ∀ p, (entriesOf p w.published).Sublist (w.forwarder p).enqueued := fun p =>
    calc (entriesOf p w.published).Sublist (w.forwarder p).delivered :=
          (List.sublist_append_left _ _).trans (hi.sent p)
      List.Sublist _ (w.forwarder p).enqueued := (hi.forwarder p).kept.in_order.sublist
  exact ⟨htaken, hpublished, fun o p => (entriesOf_sublist (htaken o)).trans (hpublished p)⟩

/-- One entry goes all the way. -/
def oneEntry : List (Step Unit Unit Unit Nat) :=
  [.forward () (.acquire () 7), .forward () (.push ()), .forward () (.notify ()), .forward () (.release ())] ++
    List.replicate 6 (.forward () .consumer) ++ [.forward () (.sendResult true), .forward () .consumer] ++
      [.look, .receive (), .observe () .subscribe, .observe () .look, .publish fun _ => false, .observe () .take]

theorem observed_in_order_one : ∃ w : World Unit Unit Unit Nat, (w.observer ()).taken = [((), 7)] ∧
    [7].Sublist (w.forwarder ()).enqueued := by
  obtain ⟨w, hw, htaken⟩ : ∃ w : World Unit Unit Unit Nat,
      LTS.exec World.step .new oneEntry = some w ∧ (w.observer ()).taken = [((), 7)] := ⟨_, rfl, rfl⟩
  have horder := (observed_in_order (.of_exec rfl hw)).2.2 () ()
  rw [htaken] at horder
  exact ⟨w, htaken, horder⟩

/-! ## Completeness -/

/-- `p` does not exit, and its messages are published and given to `o`. -/
def Lossless (p : π) (o : ω) (w : World π τ ω ε) : Step π τ ω ε → Prop
  | .exit q _ => q ≠ p
  | .raises => ∀ m ∈ w.distributor.inHand, m.1 ≠ p
  | .publish drops => drops o = false
  | _ => True

/-- An observer has all that was published since it subscribed. -/
structure Observer.Whole {μ : Type} (published : List μ) (o : Observer μ) : Prop where
  before : o.subscribed = none → o.all = []
  since : ∀ before, o.subscribed = some before → published = before ++ o.all

theorem Observer.Whole.deliver {μ : Type} {published : List μ} {o : Observer μ} (h : o.Whole published) (m : μ) :
    (o.deliver m false).Whole (published ++ [m]) := by
  have hsame : (o.deliver m false).subscribed = o.subscribed := by
    unfold Observer.deliver
    split <;> rfl
  constructor
  · intro hnone
    rw [hsame] at hnone
    rw [deliver_all, hnone]
    exact h.before hnone
  · intro before hsub
    rw [hsame] at hsub
    rw [deliver_all, hsub, h.since before hsub]
    exact List.append_assoc ..

theorem Observer.Whole.step {μ : Type} {published : List μ} {o o' : Observer μ} (h : o.Whole published)
    {l : ObserverStep} (hs : o.step published l = some o') : o'.Whole published := by
  have hall := step_all hs
  obtain hsame | ⟨hnone, hsome⟩ := step_subscribed hs
  · exact ⟨fun hsub => hall.trans (h.before (hsame ▸ hsub)), fun before hsub => hall ▸ h.since before (hsame ▸ hsub)⟩
  · refine ⟨fun hsub => ?_, fun before hsub => ?_⟩
    · rw [hsome] at hsub
      cases hsub
    · rw [hsome] at hsub
      cases hsub
      rw [hall, h.before hnone, List.append_nil]

structure Whole (p : π) (o : ω) (w : World π τ ω ε) : Prop where
  sent : entriesOf p w.published ++ (entriesOf p w.distributor.inHand ++ w.sockets p) = (w.forwarder p).delivered
  observed : (w.observer o).Whole w.published

theorem entriesOf_eq_nil {p : π} {l : List (π × ε)} (h : ∀ m ∈ l, m.1 ≠ p) : entriesOf p l = [] := by
  unfold entriesOf
  rw [List.filterMap_eq_nil_iff]
  intro m hm
  rw [if_neg (h m hm)]

omit [DecidableEq τ] [DecidableEq ω] in
/-- The distributor has nothing of `p` in its hands, before and after. -/
theorem Whole.distributor {p : π} {o : ω} (hw : Whole p o w) {place : DistributorAt (π × ε)} (h : place.inHand = [])
    (hnone : ∀ m ∈ w.distributor.inHand, m.1 ≠ p) : Whole p o { w with distributor := place } := by
  refine ⟨?_, hw.observed⟩
  have hsent := hw.sent
  rw [entriesOf_eq_nil hnone] at hsent
  simpa only [h, entriesOf_nil] using hsent

theorem whole_step {p : π} {o : ω} (hw : Whole p o w) {l : Step π τ ω ε} (hl : Lossless p o w l)
    (hs : w.step l = some w') : Whole p o w' := by
  cases l with
  | forward q l =>
    simp only [World.step] at hs
    split at hs
    · cases hs
    · obtain ⟨s', hstep, rfl⟩ := Option.map_eq_some_iff.mp hs
      clear hs
      refine ⟨?_, hw.observed⟩
      obtain rfl | hne := eq_or_ne p q
      · simp only [update_self, delivered_step hstep, ← hw.sent, List.append_assoc]
      · simp only [update_of_ne hne]
        exact hw.sent
  | exit q kept =>
    cases hs
    refine ⟨?_, hw.observed⟩
    simp only [update_of_ne (Ne.symm hl)]
    exact hw.sent
  | receive q =>
    simp only [World.step] at hs
    split at hs <;> cases hs
    rename_i m rest hreceive hsockets
    refine ⟨?_, hw.observed⟩
    have hsent := hw.sent
    rw [hreceive] at hsent
    obtain rfl | hne := eq_or_ne p q
    · rw [hsockets] at hsent
      simpa [DistributorAt.inHand, update_self] using hsent
    · simpa [DistributorAt.inHand, update_of_ne hne, entriesOf_of_ne hne.symm] using hsent
  | publish drops =>
    simp only [World.step] at hs
    split at hs <;> cases hs
    rename_i m hpublish
    replace hl : drops o = false := hl
    refine ⟨?_, ?_⟩
    · have hsent := hw.sent
      rw [hpublish] at hsent
      simpa [DistributorAt.inHand] using hsent
    · simp only [hl]
      exact hw.observed.deliver m
  | observe o' l =>
    obtain ⟨s', hstep, rfl⟩ := Option.map_eq_some_iff.mp hs
    refine ⟨hw.sent, ?_⟩
    obtain rfl | hne := eq_or_ne o o'
    · simp only [update_self]
      exact hw.observed.step hstep
    · simp only [update_of_ne hne]
      exact hw.observed
  | stop =>
    cases hs
    exact ⟨hw.sent, hw.observed⟩
  | look =>
    simp only [World.step] at hs
    split at hs <;> cases hs
    rename_i htest
    exact hw.distributor (by split <;> rfl) (by simp [htest, DistributorAt.inHand])
  | timeOut =>
    simp only [World.step] at hs
    split at hs <;> cases hs
    rename_i hreceive
    exact hw.distributor rfl (by simp [hreceive, DistributorAt.inHand])
  | raises =>
    simp only [World.step] at hs
    split at hs <;> cases hs
    exact hw.distributor rfl hl

/-- What a process has not published is on its way: in the hands of the distributor, in its
socket, in the hands of its forwarder or in the queue. -/
def waiting (p : π) (w : World π τ ω ε) : List ε :=
  entriesOf p w.distributor.inHand ++ w.sockets p ++ MessageLoop.inHand (w.forwarder p).consumer ++ (w.forwarder p).queue

/-- Where nothing is dropped, what was published since an observer subscribed is what it has
taken and what it is to take, in this order; and until its forwarder is shut down, all that a
process has queued is published or on its way. -/
theorem observed_all {p : π} {o : ω} (h : ((pipeline π τ ω ε).restrict (Lossless p o)).Reachable w) :
    (∀ before, (w.observer o).subscribed = some before →
      w.published = before ++ ((w.observer o).taken ++ (w.observer o).pipe)) ∧
      ((w.forwarder p).shutDown = false → entriesOf p w.published ++ waiting p w = (w.forwarder p).enqueued) := by
  have hind : ((pipeline π τ ω ε).restrict (Lossless p o)).Inductive fun w => Inv w ∧ Whole p o w := by
    refine ⟨fun w hw => ?_, fun w l w' hi hs => ⟨inv_step hi.1 hs.2, whole_step hi.2 hs.1 hs.2⟩⟩
    rw [show w = .new from hw]
    exact ⟨inv_new, rfl, fun _ => rfl, fun _ h => by cases h⟩
  obtain ⟨hi, hw⟩ := hind.reachable w h
  refine ⟨hw.observed.since, fun hdown => ?_⟩
  have htaken := (hi.forwarder p).kept.none_lost hdown
  calc entriesOf p w.published ++ waiting p w
      = (w.forwarder p).delivered ++ MessageLoop.inHand (w.forwarder p).consumer ++ (w.forwarder p).queue := by
        rw [← hw.sent]
        simp only [waiting, List.append_assoc]
    _ = (w.forwarder p).dequeued ++ (w.forwarder p).queue := by rw [htaken]
    _ = (w.forwarder p).enqueued := (hi.forwarder p).order.symm

theorem observed_all_one : ∃ w : World Unit Unit Unit Nat, (w.forwarder ()).shutDown = false ∧
    entriesOf () w.published ++ waiting () w = (w.forwarder ()).enqueued ∧ w.published = (w.observer ()).taken := by
  obtain ⟨w, hw, hdown, hsubscribed, hpipe⟩ : ∃ w : World Unit Unit Unit Nat,
      LTS.exec World.step .new oneEntry = some w ∧ (w.forwarder ()).shutDown = false ∧
        (w.observer ()).subscribed = some [] ∧ (w.observer ()).pipe = [] := ⟨_, rfl, rfl, rfl, rfl⟩
  have hlossless : ∀ l ∈ oneEntry, ∀ w, Lossless () () w l := by
    simp [oneEntry, Lossless, or_imp, forall_and]
  have hreach : ((pipeline Unit Unit Unit Nat).restrict (Lossless () ())).Reachable w := by
    refine LTS.Reachable.of_free ?_ hlossless hw
    rfl
  obtain ⟨hobserved, hqueued⟩ := observed_all hreach
  refine ⟨w, hdown, hqueued hdown, ?_⟩
  simpa [hpipe] using hobserved [] hsubscribed

end Catkit2.L4.LogPipeline
