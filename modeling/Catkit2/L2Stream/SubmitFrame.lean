import Catkit2.Core.LTS
import Catkit2.L2Stream.DataStream
import Mathlib.Data.UInt
import Mathlib.Order.Bounds.Basic

/-!
# Concurrent submissions (catkit_core/DataStream.cpp, DataStream::SubmitFrame)

Any number of `SubmitFrame` calls on one stream. A step is one access to what
they share: the timestamp of a slot, the load of `m_LastId`, its
compare-exchange. No call holds a lock (on Windows `Lock` and `Unlock` do
nothing), so that others come in between any two steps. Ids are `size_t`, and
`id + 1` wraps.

`compare_exchange_strong` fails only on another value; what it then stores in
`last_id` the next load overwrites. `Signal` and the frame rate leave
`m_LastId` alone.

* `step_raises`: a step leaves `m_LastId` as it is, or takes one call out of its
  loop and leaves the larger of the value and `id + 1`.
* `lastId_of_submitFrames`: `m_LastId` never decreases, and ends at the largest.
* `lastId_eq_submitFrame`: it ends where `DataStream.submitFrame`, one step
  there, would leave it.
-/
namespace Catkit2.L2.SubmitFrame

/-- Where a call is. `last_id` is its local variable.
mirrors catkit_core/DataStream.cpp:170-213 -/
inductive Pc where
  | stamp
  | load
  | test (last_id : UInt64)
  | exchange (last_id : UInt64)
  | signal
  | returned
  deriving DecidableEq

structure Call where
  id : UInt64
  pc : Pc
  deriving DecidableEq

/-- `ι` names the calls. -/
structure State (ι : Type) where
  numFramesInBuffer : UInt64
  frameMetadata : UInt64 → UInt64
  lastId : UInt64
  calls : ι → Option Call

inductive Step (ι : Type) where
  | call (i : ι) (id : UInt64)
  | advance (i : ι) (timeStamp : UInt64)

variable {ι : Type} [DecidableEq ι]

namespace State

def goto (s : State ι) (i : ι) (id : UInt64) (pc : Pc) : State ι :=
  { s with calls := Function.update s.calls i (some ⟨id, pc⟩) }

/-- `timeStamp` is what `GetTimeStamp` returns. -/
def advance (s : State ι) (i : ι) (c : Call) (timeStamp : UInt64) : Option (State ι) :=
  match c.pc with
  | .stamp =>
    some { s.goto i c.id .load with
      frameMetadata := Function.update s.frameMetadata (c.id % s.numFramesInBuffer) timeStamp }
  | .load => some (s.goto i c.id (.test s.lastId))
  | .test last_id => some (s.goto i c.id (if last_id ≥ c.id + 1 then .signal else .exchange last_id))
  | .exchange last_id =>
    if s.lastId = last_id then some { s.goto i c.id .signal with lastId := c.id + 1 }
    else some (s.goto i c.id .load)
  | .signal => some (s.goto i c.id .returned)
  | .returned => none

def step (s : State ι) : Step ι → Option (State ι)
  | .call i id =>
    match s.calls i with
    | none => some (s.goto i id .stamp)
    | some _ => none
  | .advance i timeStamp =>
    match s.calls i with
    | some c => s.advance i c timeStamp
    | none => none

/-- No call has started, and `m_LastId` is anything. -/
def init (s : State ι) : Prop := ∀ i, s.calls i = none

/-- The ids that were submitted. -/
def submitted (s : State ι) : Set UInt64 := {id | ∃ i pc, s.calls i = some ⟨id, pc⟩}

def Finished (s : State ι) : Prop := ∀ i c, s.calls i = some c → c.pc = .returned

end State

def submitFrames : LTS (State ι) (Step ι) := .ofFn State.init State.step

open State

/-! ## What each step does -/

/-- Past its loop. -/
def Pc.Passed : Pc → Prop
  | .signal | .returned => True
  | _ => False

instance (pc : Pc) : Decidable pc.Passed := by
  cases pc <;> simp only [Pc.Passed] <;> infer_instance

/-- `id + 1` of the calls that are past their loop. -/
def raised (s : State ι) : Set ℕ := {x | ∃ i id pc, s.calls i = some ⟨id, pc⟩ ∧ pc.Passed ∧ x = (id + 1).toNat}

/-- What a call knows of `m_LastId` from its last load. -/
structure Local (s : State ι) : Prop where
  seen : ∀ i id last_id, s.calls i = some ⟨id, .test last_id⟩ → last_id ≤ s.lastId
  below : ∀ i id last_id, s.calls i = some ⟨id, .exchange last_id⟩ → last_id < id + 1

variable {s s' : State ι} {i : ι} {id : UInt64} {pc pc' : Pc}

@[simp] theorem calls_goto_self : (s.goto i id pc).calls i = some ⟨id, pc⟩ := Function.update_self ..

theorem calls_goto_of_ne {j : ι} (h : j ≠ i) : (s.goto i id pc).calls j = s.calls j :=
  Function.update_of_ne h ..

/-- A call that stays in its loop leaves what the others submitted. -/
theorem raised_goto_of_not (hi : ∀ c, s.calls i = some c → ¬ c.pc.Passed) (hpc : ¬ pc.Passed) :
    raised (s.goto i id pc) = raised s := by
  ext x
  constructor
  · rintro ⟨j, id', pc', hj, hp, hx⟩
    by_cases hji : j = i
    · subst hji
      rw [calls_goto_self] at hj
      cases hj
      exact absurd hp hpc
    · exact ⟨j, id', pc', calls_goto_of_ne hji ▸ hj, hp, hx⟩
  · rintro ⟨j, id', pc', hj, hp, hx⟩
    have hji : j ≠ i := fun h => hi _ (h ▸ hj) hp
    exact ⟨j, id', pc', (calls_goto_of_ne hji).trans hj, hp, hx⟩

/-- A call that is past its loop adds its id, if it was not there before. -/
theorem raised_goto (hi : s.calls i = some ⟨id, pc⟩) (hpc : pc'.Passed) :
    raised (s.goto i id pc') = insert (id + 1).toNat (raised s) := by
  ext x
  constructor
  · rintro ⟨j, id', pc'', hj, hp, hx⟩
    by_cases hji : j = i
    · subst hji
      rw [calls_goto_self] at hj
      cases hj
      exact .inl hx
    · exact .inr ⟨j, id', pc'', calls_goto_of_ne hji ▸ hj, hp, hx⟩
  · rintro (rfl | ⟨j, id', pc'', hj, hp, hx⟩)
    · exact ⟨i, id, pc', calls_goto_self, hpc, rfl⟩
    · by_cases hji : j = i
      · subst hji
        rw [hi] at hj
        cases hj
        exact ⟨j, id, pc', calls_goto_self, hpc, hx⟩
      · exact ⟨j, id', pc'', (calls_goto_of_ne hji).trans hj, hp, hx⟩

theorem raised_signal (hi : s.calls i = some ⟨id, .signal⟩) : raised (s.goto i id .returned) = raised s := by
  have hmem : (id + 1).toNat ∈ raised s := ⟨i, id, .signal, hi, trivial, rfl⟩
  have hpassed : Pc.returned.Passed := trivial
  rw [raised_goto hi hpassed]
  exact Set.insert_eq_of_mem hmem

/-- The step of one call keeps what the others know, as `m_LastId` does not
decrease. -/
theorem Local.goto (h : Local s) (hle : s.lastId ≤ s'.lastId)
    (hcalls : s'.calls = (s.goto i id pc).calls)
    (hseen : ∀ last_id, pc = .test last_id → last_id ≤ s'.lastId)
    (hbelow : ∀ last_id, pc = .exchange last_id → last_id < id + 1) : Local s' := by
  constructor
  · intro j id' last_id hj
    rw [hcalls] at hj
    by_cases hji : j = i
    · subst hji
      rw [calls_goto_self] at hj
      cases hj
      exact hseen last_id rfl
    · rw [calls_goto_of_ne hji] at hj
      exact UInt64.le_trans (h.seen j id' last_id hj) hle
  · intro j id' last_id hj
    rw [hcalls] at hj
    by_cases hji : j = i
    · subst hji
      rw [calls_goto_self] at hj
      cases hj
      exact hbelow last_id rfl
    · rw [calls_goto_of_ne hji] at hj
      exact h.below j id' last_id hj

/-- `m_LastId` stays, and so does what was submitted, or one call more is past
its loop and `m_LastId` is the larger of itself and its `id + 1`. -/
def Raises (s s' : State ι) : Prop :=
  (s'.lastId = s.lastId ∧ raised s' = raised s) ∨
    ∃ x, s'.lastId.toNat = max s.lastId.toNat x ∧ raised s' = insert x (raised s)

omit [DecidableEq ι] in
theorem Raises.le (h : Raises s s') : s.lastId ≤ s'.lastId := by
  rcases h with ⟨h, -⟩ | ⟨x, h, -⟩
  · exact UInt64.le_of_eq h.symm
  · rw [UInt64.le_iff_toNat_le, h]
    exact le_max_left _ _

/-- What a call does next. -/
theorem advance_raises {timeStamp : UInt64} (h : Local s) (hi : s.calls i = some ⟨id, pc⟩)
    (hs : s.advance i ⟨id, pc⟩ timeStamp = some s') : Raises s s' ∧ Local s' := by
  have hin : ¬ pc.Passed → ∀ c, s.calls i = some c → ¬ c.pc.Passed := by
    intro hp c hc
    rw [hi] at hc
    cases hc
    exact hp
  cases pc with
  | stamp =>
    cases hs
    have hr : raised (s.goto i id .load) = raised s := raised_goto_of_not (hin nofun) nofun
    exact ⟨.inl ⟨rfl, hr⟩, h.goto (UInt64.le_refl _) rfl nofun nofun⟩
  | load =>
    cases hs
    have hr : raised (s.goto i id (.test s.lastId)) = raised s := raised_goto_of_not (hin nofun) nofun
    refine ⟨.inl ⟨rfl, hr⟩, h.goto (UInt64.le_refl _) rfl (fun last_id hl => ?_) nofun⟩
    cases hl
    exact UInt64.le_refl _
  | test last_id =>
    cases hs
    by_cases hge : last_id ≥ id + 1
    · -- the loop ends, as `m_LastId` is still at least what the call has seen
      rw [if_pos hge]
      have hle : id + 1 ≤ s.lastId := UInt64.le_trans hge (h.seen i id last_id hi)
      refine ⟨.inr ⟨(id + 1).toNat, ?_, raised_goto hi trivial⟩, h.goto (UInt64.le_refl _) rfl nofun nofun⟩
      exact (max_eq_left (UInt64.le_iff_toNat_le.mp hle)).symm
    · rw [if_neg hge]
      have hr : raised (s.goto i id (.exchange last_id)) = raised s := raised_goto_of_not (hin nofun) nofun
      refine ⟨.inl ⟨rfl, hr⟩, h.goto (UInt64.le_refl _) rfl nofun fun l hl => ?_⟩
      cases hl
      exact UInt64.not_le.mp hge
  | exchange last_id =>
    simp only [advance] at hs
    have hlt := h.below i id last_id hi
    by_cases heq : s.lastId = last_id
    · rw [if_pos heq] at hs
      cases hs
      have hle : s.lastId ≤ id + 1 := heq ▸ UInt64.le_of_lt hlt
      refine ⟨.inr ⟨(id + 1).toNat, ?_, raised_goto hi trivial⟩, h.goto hle rfl nofun nofun⟩
      exact (max_eq_right (UInt64.le_iff_toNat_le.mp hle)).symm
    · -- another call came in between
      rw [if_neg heq] at hs
      cases hs
      have hr : raised (s.goto i id .load) = raised s := raised_goto_of_not (hin nofun) nofun
      exact ⟨.inl ⟨rfl, hr⟩, h.goto (UInt64.le_refl _) rfl nofun nofun⟩
  | signal =>
    cases hs
    exact ⟨.inl ⟨rfl, raised_signal hi⟩, h.goto (UInt64.le_refl _) rfl nofun nofun⟩
  | returned => cases hs

/-- **One step of any call.** -/
theorem step_raises {l : Step ι} (h : Local s) (hs : s.step l = some s') : Raises s s' ∧ Local s' := by
  cases l with
  | call i id =>
    simp only [step] at hs
    split at hs
    · rename_i hi
      cases hs
      have hr : raised (s.goto i id .stamp) = raised s :=
        raised_goto_of_not (fun c hc => by rw [hi] at hc; cases hc) nofun
      exact ⟨.inl ⟨rfl, hr⟩, h.goto (UInt64.le_refl _) rfl nofun nofun⟩
    · cases hs
  | advance i timeStamp =>
    simp only [step] at hs
    split at hs
    · rename_i c hi
      exact advance_raises h hi hs
    · cases hs

/-! ## What a run does -/

omit [DecidableEq ι] in
theorem local_init (h : s.init) : Local s := by
  constructor
  · intro i id last_id hi
    rw [h i] at hi
    cases hi
  · intro i id last_id hi
    rw [h i] at hi
    cases hi

omit [DecidableEq ι] in
theorem raised_init (h : s.init) : raised s = ∅ := by
  refine Set.eq_empty_of_forall_notMem ?_
  rintro x ⟨i, id, pc, hi, -⟩
  rw [h i] at hi
  cases hi

/-- The invariant of a run: `m_LastId` is the largest of what it was and of what
the calls past their loops submitted. -/
structure Inv (initial : UInt64) (s : State ι) : Prop where
  known : Local s
  greatest : IsGreatest (insert initial.toNat (raised s)) s.lastId.toNat

omit [DecidableEq ι] in
theorem inv_init (h : s.init) : Inv s.lastId s := by
  refine ⟨local_init h, ?_⟩
  rw [raised_init h]
  exact ⟨.inl rfl, by rintro x (rfl | hx); exacts [Nat.le_refl _, hx.elim]⟩

theorem inv_step {initial : UInt64} {l : Step ι} (h : Inv initial s) (hs : s.step l = some s') :
    Inv initial s' := by
  obtain ⟨hr, hl⟩ := step_raises h.known hs
  refine ⟨hl, ?_⟩
  rcases hr with ⟨h1, h2⟩ | ⟨x, h1, h2⟩
  · rw [h1, h2]
    exact h.greatest
  · rw [h1, h2, Set.insert_comm, max_comm]
    exact h.greatest.insert x

theorem Inv.run {initial : UInt64} {ls : List (Step ι)} (h : Inv initial s) (hr : submitFrames.Run s ls s') :
    Inv initial s' :=
  hr.preserves (I := Inv initial) (fun _ _ _ hi hs => inv_step hi hs) h

/-- `m_LastId` does not decrease along a run. -/
theorem lastId_le_run {ls : List (Step ι)} (h : Local s) (hr : submitFrames.Run s ls s') :
    s.lastId ≤ s'.lastId := by
  induction hr with
  | nil => exact UInt64.le_refl _
  | cons hs _ ih =>
    obtain ⟨h1, h2⟩ := step_raises h hs
    exact UInt64.le_trans h1.le (ih h2)

omit [DecidableEq ι] in
/-- With all calls finished, everything submitted counts. -/
theorem raised_of_finished (h : s.Finished) : raised s = {x | ∃ id ∈ s.submitted, x = (id + 1).toNat} := by
  ext x
  constructor
  · rintro ⟨i, id, pc, hi, -, hx⟩
    exact ⟨id, ⟨i, pc, hi⟩, hx⟩
  · rintro ⟨id, ⟨i, pc, hi⟩, hx⟩
    have hpc : pc = .returned := h i _ hi
    exact ⟨i, id, pc, hi, by rw [hpc]; trivial, hx⟩

omit [DecidableEq ι] in
theorem Inv.greatest_of_finished {initial : UInt64} (h : Inv initial s) (hf : s.Finished) :
    IsGreatest (insert initial.toNat {x | ∃ id ∈ s.submitted, x = (id + 1).toNat}) s.lastId.toNat := by
  rw [← raised_of_finished hf]
  exact h.greatest

/-- **Submissions race to the maximum**: in every run from a stream on which no
call has started, `m_LastId` does not decrease from any state of it to a later
one, and when all calls have finished it is the largest of what it was and of all
`id + 1`, in the arithmetic of `size_t`. -/
theorem lastId_of_submitFrames {s₀ : State ι} {ls : List (Step ι)} (h₀ : s₀.init)
    (hr : submitFrames.Run s₀ ls s) :
    (∀ ls' s', submitFrames.Run s ls' s' → s.lastId ≤ s'.lastId) ∧
      (s.Finished → IsGreatest (insert s₀.lastId.toNat {x | ∃ id ∈ s.submitted, x = (id + 1).toNat})
        s.lastId.toNat) := by
  have hinv := (inv_init h₀).run hr
  exact ⟨fun ls' s' hr' => lastId_le_run hinv.known hr', hinv.greatest_of_finished⟩

/-- A stream on which the ids up to `lastId` are submitted. -/
def State.new (numFramesInBuffer lastId : UInt64) : State ι :=
  ⟨numFramesInBuffer, fun _ => 0, lastId, fun _ => none⟩

/-- Frames 1 and 0 are submitted, in this order; the exchange of the first call
fails once. -/
def exampleSteps : List (Step Bool) :=
  [.call true 1, .advance true 10, .advance true 0, .advance true 0, .call false 0, .advance false 11,
    .advance false 0, .advance false 0, .advance false 0, .advance false 0,
    .advance true 0, .advance true 0, .advance true 0, .advance true 0, .advance true 0]

theorem lastId_of_submitFrames_two : ∃ s : State Bool, s.Finished ∧
    IsGreatest (insert 0 {x | ∃ id ∈ s.submitted, x = (id + 1).toNat}) s.lastId.toNat ∧ s.lastId = 2 := by
  obtain ⟨s, hs⟩ : ∃ s, LTS.exec State.step (.new 2 0) exampleSteps = some s := ⟨_, rfl⟩
  have hf : s.Finished := by
    intro i c hc
    cases hs
    revert i c
    decide
  refine ⟨s, hf, (lastId_of_submitFrames (fun _ => rfl) (LTS.run_of_exec _ _ _ _ _ hs)).2 hf, ?_⟩
  cases hs
  rfl

/-! ## The one step of `DataStream.submitFrame` -/

/-- Calls of `SubmitFrame`, one after the other. -/
def submitAll (d : DataStream) (calls : List (UInt64 × UInt64)) : DataStream :=
  calls.foldl (fun d c => d.submitFrame c.1.toNat c.2) d

theorem lastId_submitAll (calls : List (UInt64 × UInt64)) (d : DataStream) :
    IsGreatest (insert d.lastId {x | ∃ c ∈ calls, x = c.1.toNat + 1}) (submitAll d calls).lastId := by
  induction calls generalizing d with
  | nil => exact ⟨.inl rfl, by rintro x (rfl | ⟨c, hc, -⟩); exacts [Nat.le_refl _, absurd hc List.not_mem_nil]⟩
  | cons c calls ih =>
    obtain ⟨hmem, hle⟩ := ih (d.submitFrame c.1.toNat c.2)
    have hmax : (d.submitFrame c.1.toNat c.2).lastId = max d.lastId (c.1.toNat + 1) := by
      simp only [DataStream.submitFrame]
      split <;> omega
    have hself : max d.lastId (c.1.toNat + 1) ≤ (submitAll d (c :: calls)).lastId := hle (.inl hmax.symm)
    constructor
    · rcases hmem with heq | ⟨c', hc', hx⟩
      · rcases max_choice d.lastId (c.1.toNat + 1) with h | h
        · exact .inl ((heq.trans hmax).trans h)
        · exact .inr ⟨c, List.mem_cons_self, (heq.trans hmax).trans h⟩
      · exact .inr ⟨c', List.mem_cons_of_mem _ hc', hx⟩
    · rintro x (rfl | ⟨c', hc', rfl⟩)
      · exact Nat.le_trans (le_max_left _ _) hself
      · rcases List.mem_cons.mp hc' with rfl | hc'
        · exact Nat.le_trans (le_max_right _ _) hself
        · exact hle (.inr ⟨c', hc', rfl⟩)

/-- Calls that race leave `m_LastId` where the same calls leave it one after the
other, in any order, as long as the ids do not wrap. -/
theorem lastId_eq_submitFrame {s₀ : State ι} {ls : List (Step ι)} (h₀ : s₀.init)
    (hr : submitFrames.Run s₀ ls s) (hf : s.Finished) {d : DataStream} (hd : d.lastId = s₀.lastId.toNat)
    {calls : List (UInt64 × UInt64)} (hcalls : ∀ id, id ∈ s.submitted ↔ ∃ ts, (id, ts) ∈ calls)
    (hwrap : ∀ id ∈ s.submitted, id.toNat + 1 < 2 ^ 64) : (submitAll d calls).lastId = s.lastId.toNat := by
  have hg := ((inv_init h₀).run hr).greatest_of_finished hf
  have hset : {x | ∃ id ∈ s.submitted, x = (id + 1).toNat} = {x | ∃ c ∈ calls, x = c.1.toNat + 1} := by
    have hadd : ∀ id ∈ s.submitted, (id + 1).toNat = id.toNat + 1 := by
      intro id hid
      rw [UInt64.toNat_add]
      exact Nat.mod_eq_of_lt (hwrap id hid)
    ext x
    constructor
    · rintro ⟨id, hid, rfl⟩
      obtain ⟨ts, hts⟩ := (hcalls id).mp hid
      exact ⟨_, hts, hadd id hid⟩
    · rintro ⟨⟨id, ts⟩, hc, rfl⟩
      have hid := (hcalls id).mpr ⟨ts, hc⟩
      exact ⟨id, hid, (hadd id hid).symm⟩
  rw [hset, ← hd] at hg
  exact (lastId_submitAll calls d).unique hg

end Catkit2.L2.SubmitFrame
