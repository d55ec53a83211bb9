import Catkit2.Core.Number

/-!
# Waiting for a condition (catkit_core/Synchronization.cpp, catkit_core/Timing.cpp)

`Synchronization::Wait` is a loop around a wait of at most 20 ms of the
platform. A turn of the loop is what the surroundings answer in it
(`Turn`): whether the condition holds, what the clocks read, how the wait of
the platform ended, what the error check threw. `wait` runs the loop over any
list of turns.

On Linux the wait takes an absolute time, put together from a reading of the
monotonic clock in seconds and nanoseconds. The time that passed is compared
with the timeout in doubles, and only if the wait of the platform timed out.

* `timedWaits_valid_iff`: when the time that is waited for is one.
* `gives_up_iff`: what ends the loop once the timeout has passed.
-/
namespace Catkit2.L2

/-! ## Times -/

/-- `struct timespec`. -/
structure Timespec where
  tvSec : Int
  tvNsec : Int
  deriving DecidableEq, Repr

namespace Timespec

def Valid (t : Timespec) : Prop := 0 ≤ t.tvNsec ∧ t.tvNsec < 10 ^ 9

instance (t : Timespec) : Decidable t.Valid := by unfold Valid; exact inferInstance

/-- The time it denotes, in nanoseconds. -/
def nanoseconds (t : Timespec) : Int := t.tvSec * 10 ^ 9 + t.tvNsec

end Timespec

/-- Wait for a maximum of 20 ms, to check for errors.
mirrors catkit_core/Synchronization.cpp:162 -/
def timeoutWait (timeoutInMs : Int) : Int := min 20 timeoutInMs

/-- The absolute time for a reading of `CLOCK_MONOTONIC`; `long` division truncates.
mirrors catkit_core/Synchronization.cpp:172-176 -/
def absoluteTimeout (clock : Timespec) (timeoutInMs : Int) : Timespec where
  tvSec := clock.tvSec + (timeoutWait timeoutInMs).tdiv 1000
  tvNsec := clock.tvNsec + 1000000 * (timeoutWait timeoutInMs).tmod 1000

/-- Nanoseconds as seconds.
mirrors catkit_core/Timing.cpp:37-42 -/
def getTime (elapsed : Nat) : Number := (Number.round elapsed).divBy (10 ^ 9)

/-- `timer.GetTime() > (timeout_in_ms * 0.001)`, `elapsed` nanoseconds after the start.
mirrors catkit_core/Synchronization.cpp:131,180 -/
def expired (timeoutInMs : Int) (elapsed : Nat) : Bool :=
  Number.lt (.fmul (.round timeoutInMs) (.round (1 / 1000))) (getTime elapsed)

/-! ## The loop -/

/-- How the wait of the platform ended. A spurious wake-up looks like a signal. -/
inductive Wake where
  | signalled
  | timedOut
  /-- An error, such as that of a time that is none. -/
  | failed
  deriving DecidableEq, Repr

/-- What the surroundings answer in one turn of the loop. The times are
nanoseconds on the steady clock: when the turn begins, and when `GetTime` is
called after the wait. -/
structure Turn where
  condition : Bool
  begins : Nat
  clock : Timespec
  wake : Wake
  checks : Nat
  errorCheck : Option String

inductive Platform where
  | posix
  | windows
  deriving DecidableEq, Repr

/-- How a turn ends. -/
inductive Next where
  | returns
  | throws (msg : String)
  | goesOn
  deriving DecidableEq, Repr

/-- A turn of a wait that began at `start`. The text of a failure ends with the
number of the error.
mirrors catkit_core/Synchronization.cpp:115-155,159-187 -/
def Turn.run (p : Platform) (timeoutInMs : Int) (start : Nat) (t : Turn) : Next :=
  if t.condition then .returns
  else if t.wake = .timedOut ∧ expired timeoutInMs (t.checks - start) then
    .throws "Waiting time has expired."
  else if p = .windows ∧ t.wake = .failed then
    .throws "An error occured during waiting for the semaphore: "
  else match t.errorCheck with
    | some msg => .throws msg
    | none => .goesOn

/-- How a wait ends, and in which turn. -/
inductive Waited where
  | returned (turn : Nat)
  | threw (turn : Nat) (msg : String)
  | waiting
  deriving DecidableEq, Repr

/-- mirrors catkit_core/Synchronization.cpp:106-189 -/
def waitFrom (p : Platform) (timeoutInMs : Int) (start : Nat) (n : Nat) : List Turn → Waited
  | [] => .waiting
  | t :: turns =>
    match t.run p timeoutInMs start with
    | .returns => .returned n
    | .throws msg => .threw n msg
    | .goesOn => waitFrom p timeoutInMs start (n + 1) turns

def wait (p : Platform) (timeoutInMs : Int) (start : Nat) (turns : List Turn) : Waited :=
  waitFrom p timeoutInMs start 0 turns

/-- The readings of the clock in a wait, with the times made of them and passed
to `pthread_cond_timedwait`. -/
def timedWaits (timeoutInMs : Int) (start : Nat) : List Turn → List (Timespec × Timespec)
  | [] => []
  | t :: turns =>
    if t.condition then []
    else (t.clock, absoluteTimeout t.clock timeoutInMs) ::
      if t.run .posix timeoutInMs start = .goesOn then timedWaits timeoutInMs start turns else []

/-! ## The absolute time -/

/-- The time is right, as a number of nanoseconds. -/
theorem nanoseconds_absoluteTimeout (clock : Timespec) (timeoutInMs : Int) :
    (absoluteTimeout clock timeoutInMs).nanoseconds =
      clock.nanoseconds + timeoutWait timeoutInMs * 10 ^ 6 := by
  have hdiv := Int.mul_tdiv_add_tmod (timeoutWait timeoutInMs) 1000
  simp only [Timespec.nanoseconds, absoluteTimeout]
  omega

/-- A part of a second is all that is ever added. -/
theorem valid_absoluteTimeout_iff {clock : Timespec} (hc : clock.Valid) {timeoutInMs : Int}
    (ht : 0 < timeoutInMs) : (absoluteTimeout clock timeoutInMs).Valid ↔
      clock.tvNsec + timeoutWait timeoutInMs * 10 ^ 6 < 10 ^ 9 := by
  obtain ⟨h0, -⟩ := hc
  have hpos : 0 < timeoutWait timeoutInMs := by unfold timeoutWait; omega
  have hmod : (timeoutWait timeoutInMs).tmod 1000 = timeoutWait timeoutInMs :=
    Int.tmod_eq_of_lt hpos.le (by unfold timeoutWait; omega)
  simp only [Timespec.Valid, absoluteTimeout, hmod]
  omega

/-- **The times that are waited for.** For every positive timeout and whatever
happens in the turns of a wait: the time passed to `pthread_cond_timedwait` is
valid, and that of the reading and the at most 20 ms, exactly when these end in
the second of the reading. -/
theorem timedWaits_valid_iff (timeoutInMs : Int) (ht : 0 < timeoutInMs) (start : Nat) (turns : List Turn)
    (hclock : ∀ t ∈ turns, t.clock.Valid) (w : Timespec × Timespec)
    (hw : w ∈ timedWaits timeoutInMs start turns) :
    (w.2.Valid ∧ w.2.nanoseconds = w.1.nanoseconds + min 20 timeoutInMs * 10 ^ 6) ↔
      w.1.tvNsec + min 20 timeoutInMs * 10 ^ 6 < 10 ^ 9 := by
  induction turns with
  | nil => cases hw
  | cons t turns ih =>
    unfold timedWaits at hw
    split at hw
    · cases hw
    · rcases List.mem_cons.mp hw with rfl | hw
      · have hvalid := valid_absoluteTimeout_iff (hclock t List.mem_cons_self) ht
        exact ⟨fun h => hvalid.mp h.1, fun h => ⟨hvalid.mpr h, nanoseconds_absoluteTimeout _ _⟩⟩
      · split at hw
        · exact ih (fun t' ht' => hclock t' (List.mem_cons_of_mem _ ht')) hw
        · cases hw

/-- A turn that times out, in the middle of a second. -/
def midSecond : Turn := ⟨false, 0, ⟨5, 500000000⟩, .timedOut, 20000000, none⟩

theorem timedWaits_valid_iff_midSecond :
    timedWaits 100 0 [midSecond] = [(⟨5, 500000000⟩, ⟨5, 520000000⟩)] ∧
      (⟨5, 520000000⟩ : Timespec).Valid := by
  have hw : timedWaits 100 0 [midSecond] = [(⟨5, 500000000⟩, ⟨5, 520000000⟩)] := by decide +kernel
  have hclock : ∀ t ∈ [midSecond], t.clock.Valid := by decide
  have hmem : (⟨5, 500000000⟩, ⟨5, 520000000⟩) ∈ timedWaits 100 0 [midSecond] := by
    rw [hw]
    exact List.mem_cons_self
  exact ⟨hw, ((timedWaits_valid_iff 100 (by decide) 0 [midSecond] hclock _ hmem).mpr (by decide)).1⟩

/-- **The counterexample.** Ten milliseconds before the second is full. -/
theorem invalid_time_waited_for : ¬ ∀ (timeoutInMs : Int), 0 < timeoutInMs →
    ∀ (start : Nat) (turns : List Turn), (∀ t ∈ turns, t.clock.Valid) → ∀ w ∈ timedWaits timeoutInMs start turns,
      w.2.Valid ∧ w.2.nanoseconds = w.1.nanoseconds + min 20 timeoutInMs * 10 ^ 6 := by
  intro h
  have hvalid := (h 100 (by decide) 0 [⟨false, 0, ⟨5, 990000000⟩, .signalled, 0, none⟩] (by decide)
    (⟨5, 990000000⟩, ⟨5, 1010000000⟩) (by decide)).1
  revert hvalid
  decide

/-! ## Expiry -/

theorem getTime_mono {a b : Nat} (h : a ≤ b) : Number.le (getTime a) (getTime b) = true :=
  Number.divBy_mono (Number.zero_le_round_natCast a)
    (Number.round_mono (by exact_mod_cast h)) (by norm_num)

/-- Once the timeout has passed it stays so. -/
theorem expired_mono {timeoutInMs : Int} {a b : Nat} (h : a ≤ b) (ha : expired timeoutInMs a = true) :
    expired timeoutInMs b = true :=
  Number.lt_of_lt_of_le ha (getTime_mono h)

/-- A turn whose condition is false and that checks the time after the timeout. -/
theorem run_throws_iff (p : Platform) {timeoutInMs : Int} {start : Nat} {t : Turn}
    (hcond : t.condition = false) (hexp : expired timeoutInMs (t.checks - start) = true) :
    (∃ msg, t.run p timeoutInMs start = .throws msg) ↔
      t.wake = .timedOut ∨ (p = .windows ∧ t.wake = .failed) ∨ t.errorCheck.isSome := by
  unfold Turn.run
  rw [hcond, hexp]
  simp only [Bool.false_eq_true, if_false, and_true]
  by_cases hout : t.wake = .timedOut
  · rw [if_pos hout]
    exact ⟨fun _ => .inl hout, fun _ => ⟨_, rfl⟩⟩
  · rw [if_neg hout]
    by_cases hfail : p = .windows ∧ t.wake = .failed
    · rw [if_pos hfail]
      exact ⟨fun _ => .inr (.inl hfail), fun _ => ⟨_, rfl⟩⟩
    · rw [if_neg hfail]
      cases t.errorCheck with
      | some msg => exact ⟨fun _ => .inr (.inr rfl), fun _ => ⟨msg, rfl⟩⟩
      | none =>
        refine ⟨fun ⟨msg, h⟩ => (by cases h), fun h => ?_⟩
        rcases h with h | h | h
        · exact absurd h hout
        · exact absurd h hfail
        · cases h

/-- The turns before went on, so the wait is in this one. -/
theorem waitFrom_append {p : Platform} {timeoutInMs : Int} {start : Nat} {pre : List Turn}
    (hpre : ∀ t ∈ pre, t.run p timeoutInMs start = .goesOn) (n : Nat) (turns : List Turn) :
    waitFrom p timeoutInMs start n (pre ++ turns) = waitFrom p timeoutInMs start (n + pre.length) turns := by
  induction pre generalizing n with
  | nil => rfl
  | cons t pre ih =>
    rw [List.cons_append]
    conv_lhs => unfold waitFrom
    rw [hpre t List.mem_cons_self, ih (fun t' ht' => hpre t' (List.mem_cons_of_mem _ ht'))]
    simp only [List.length_cons]
    congr 1
    omega

/-- What comes after a turn ends in a later one. -/
theorem lt_of_waitFrom_threw {p : Platform} {timeoutInMs : Int} {start : Nat} {turns : List Turn} {n k : Nat}
    {msg : String} (h : waitFrom p timeoutInMs start n turns = .threw k msg) : n ≤ k := by
  induction turns generalizing n with
  | nil => cases h
  | cons t turns ih =>
    unfold waitFrom at h
    split at h
    · cases h
    · cases h
      exact Nat.le_refl _
    · exact Nat.le_of_succ_le (ih h)

theorem wait_threw_iff {p : Platform} {timeoutInMs : Int} {start : Nat} {pre post : List Turn} {t : Turn}
    (hpre : ∀ t' ∈ pre, t'.run p timeoutInMs start = .goesOn) :
    (∃ msg, wait p timeoutInMs start (pre ++ t :: post) = .threw pre.length msg) ↔
      ∃ msg, t.run p timeoutInMs start = .throws msg := by
  unfold wait
  rw [waitFrom_append hpre, Nat.zero_add, waitFrom]
  split
  · rename_i hrun
    rw [hrun]
    exact ⟨fun ⟨msg, h⟩ => (by cases h), fun ⟨msg, h⟩ => by cases h⟩
  · rename_i msg hrun
    rw [hrun]
    exact ⟨fun _ => ⟨msg, rfl⟩, fun _ => ⟨msg, rfl⟩⟩
  · rename_i hrun
    rw [hrun]
    refine ⟨fun ⟨msg, h⟩ => ?_, fun ⟨msg, h⟩ => by cases h⟩
    exact absurd (lt_of_waitFrom_threw h) (Nat.not_succ_le_self _)

/-- **When a wait gives up.** On either platform, for every timeout and after any
turns that went on: a turn that begins after the timeout with a false condition
ends the wait by throwing exactly when the wait of the platform timed out (or
failed, on Windows) or the error check throws. -/
theorem gives_up_iff (p : Platform) (timeoutInMs : Int) (start : Nat) (pre post : List Turn) (t : Turn)
    (hpre : ∀ t' ∈ pre, t'.run p timeoutInMs start = .goesOn) (hcond : t.condition = false)
    (hclock : t.begins ≤ t.checks) (hexp : expired timeoutInMs (t.begins - start) = true) :
    (∃ msg, wait p timeoutInMs start (pre ++ t :: post) = .threw pre.length msg) ↔
      t.wake = .timedOut ∨ (p = .windows ∧ t.wake = .failed) ∨ t.errorCheck.isSome := by
  rw [wait_threw_iff hpre]
  exact run_throws_iff p hcond (expired_mono (by omega) hexp)

/-- Turns of 20 ms. The last one begins after 110 ms. -/
def signalledThenTimedOut : List Turn :=
  [⟨false, 0, ⟨5, 0⟩, .signalled, 20000000, none⟩,
    ⟨false, 20000000, ⟨5, 20000000⟩, .timedOut, 40000000, none⟩]

theorem gives_up_iff_late : ∃ msg, wait .posix 100 0 (signalledThenTimedOut ++
    ⟨false, 110000000, ⟨5, 110000000⟩, .timedOut, 130000000, none⟩ :: []) = .threw 2 msg :=
  (gives_up_iff .posix 100 0 signalledThenTimedOut []
    ⟨false, 110000000, ⟨5, 110000000⟩, .timedOut, 130000000, none⟩
    (by decide +kernel) rfl (by decide) (by decide +kernel)).mpr (.inl rfl)

/-- **The counterexample.** Other frames are signalled, and the wait goes on. -/
theorem signals_keep_waiting : ¬ ∀ (p : Platform) (timeoutInMs : Int) (start : Nat)
    (pre post : List Turn) (t : Turn),
    (∀ t' ∈ pre, t'.run p timeoutInMs start = .goesOn) → t.condition = false → t.begins ≤ t.checks →
      expired timeoutInMs (t.begins - start) = true →
      ∃ msg, wait p timeoutInMs start (pre ++ t :: post) = .threw pre.length msg := by
  intro h
  obtain ⟨msg, hmsg⟩ := h .posix 100 0 signalledThenTimedOut []
    ⟨false, 110000000, ⟨5, 110000000⟩, .signalled, 111000000, none⟩
    (by decide +kernel) rfl (by decide) (by decide +kernel)
  have hgo : wait .posix 100 0 (signalledThenTimedOut ++
      ⟨false, 110000000, ⟨5, 110000000⟩, .signalled, 111000000, none⟩ :: []) = .waiting := by decide +kernel
  rw [hgo] at hmsg
  cases hmsg

end Catkit2.L2
