import Catkit2.Core.LTS
import Mathlib.Algebra.Ring.Int.Defs
import Mathlib.Data.List.Basic
import Mathlib.Logic.Function.Basic

/-!
# Deformable mirrors (catkit2/base_services/deformable_mirror.py, bmc_deformable_mirror.py)

A mirror has one thread for each channel. The thread takes the newest frame of
its channel and runs `update_dm`: it reads the latest frame of every channel,
adds them up and calls `send_surface`. All threads share the attributes of the
service, in which `send_surface` keeps the surface and, computed from it when
asked for, the voltages.

`update_dm` is modelled as the list of accesses to shared state it still has
to make (`Op`); a property whose cache is empty puts its own accesses in
front. A thread makes one access in a step, so the threads interleave between
any two. What raises inside `update_dm` ends its thread. Each channel is the
log of the frames submitted to it, oldest first, of which the last 20 have a
slot. `Total.used`, `Voltages.of` and `State.sent` are for the statements: which
frame of a channel was read, of which surface the voltages are, and what the
thread had read that sent last.

* `newest_commands_sent`: where no read raises, no thread disturbs another one on
  its way to its send, and threads send in the order in which they read, the
  device is left with the sum of the latest frames.
* `newest_command_lost`: without that, two channels are enough to leave it
  with an older sum.
-/
namespace Catkit2.L5

variable {χ α β : Type}

/-- A mirror's configuration: the channels in order, the voltages of a
surface, what `dac_bit_depth` makes of voltages, and the surface of voltages.
mirrors catkit2/base_services/bmc_deformable_mirror.py:78-106 -/
structure Mirror (χ α β : Type) where
  channels : List χ
  nodup : channels.Nodup
  voltages : α → β
  discretize : Option (β → β)
  surface : β → α

/-! ## State -/

/-- A total surface, and up to which frame of each channel it goes. -/
structure Total (χ α : Type) where
  value : α
  used : χ → Nat

/-- Voltages, and the surface they were computed from. -/
structure Voltages (χ α β : Type) where
  value : β
  of : Total χ α

/-- The attributes that `send_surface` uses, `None` where a cache is empty,
and the frames of its two data streams. -/
structure Attributes (χ α β : Type) where
  _surface : Total χ α
  _voltages : Option (Voltages χ α β)
  _discretized_voltages : Option β
  _discretized_surface : Option α
  total_surface : List α
  total_voltage : List β

/-- The values that a thread holds; `newest` is the frame that `get_latest_frame` is after. -/
structure Locals (χ α β : Type) where
  newest : Nat
  total_surface : Total χ α
  voltages : Option (Voltages χ α β)
  discretized_voltages : Option β
  discretized_surface : Option α

/-- An access of a thread to what it shares with others. -/
inductive Op (χ : Type) where
  /-- `total_surface += stream.get_latest_frame().data`: the id of the newest frame, whether
  it is available still, and the data in its slot. -/
  | newest (c : χ) | available (c : χ) | add (c : χ)
  /-- The setter of `surface`, four writes. -/
  | setSurface | clearVoltages | clearDiscretizedSurface | clearDiscretizedVoltages
  /-- The property `voltages`: the test, and its later accesses. -/
  | voltages | computeVoltages | storeVoltages | returnVoltages
  /-- `self.device.send_data`, under the lock. -/
  | sendData
  /-- The property `discretized_voltages`. -/
  | discretizedVoltages | storeDiscretizedVoltages | discretize | returnDiscretizedVoltages
  /-- The property `discretized_surface`. -/
  | discretizedSurface | storeDiscretizedSurface | invert | returnDiscretizedSurface
  | submitSurface | submitVoltage

/-- In `get_next_frame`, inside `update_dm`, or ended by an exception. -/
inductive Thread (χ α β : Type) where
  | waiting
  | inside (ops : List (Op χ)) (l : Locals χ α β)
  | dead

def Thread.isInside : Thread χ α β → Bool
  | .inside _ _ => true
  | _ => false

structure State (χ α β : Type) where
  frames : χ → List α
  /-- `m_NextFrameIdToRead` of the thread's data stream. -/
  taken : χ → Nat
  thread : χ → Thread χ α β
  self : Attributes χ α β
  device : Voltages χ α β
  /-- What the thread that sent last had read. -/
  sent : χ → Nat

inductive Status where
  | NO_ERR | ERR
  deriving DecidableEq

inductive Label (χ α : Type) where
  | submit (c : χ) (data : α)
  | take (c : χ)
  /-- The next access of the thread; `status` is what `send_data` returns. -/
  | access (c : χ) (status : Status)

/-! ## update_dm -/

/-- mirrors catkit2/base_services/bmc_deformable_mirror.py:42-57, 70-76,
catkit2/services/bmc_deformable_mirror_hardware/bmc_deformable_mirror_hardware.py:48-57 -/
def sendSurface : List (Op χ) :=
  [.setSurface, .clearVoltages, .clearDiscretizedSurface, .clearDiscretizedVoltages,
    .voltages, .sendData,
    .discretizedSurface, .submitSurface, .discretizedVoltages, .submitVoltage]

/-- mirrors catkit_core/DataStream.cpp:383-389 -/
def getLatestFrame (c : χ) : List (Op χ) := [.newest c, .available c, .add c]

/-- mirrors catkit2/base_services/deformable_mirror.py:114-125 -/
def updateDm (m : Mirror χ α β) : List (Op χ) := m.channels.flatMap getLatestFrame ++ sendSurface

/-- mirrors catkit2/base_services/deformable_mirror.py:60 -/
def numFramesInBuffer : Nat := 20

/-- `m_FirstId` -/
def firstId (frames : List α) : Nat := frames.length - numFramesInBuffer

/-- The frame that is in the slot of frame `id` now. -/
def inSlot (frames : List α) (id : Nat) : Nat :=
  id + (frames.length - 1 - id) / numFramesInBuffer * numFramesInBuffer

def Total.zero [Zero α] : Total χ α := ⟨0, fun _ => 0⟩

def Total.add [DecidableEq χ] [Add α] (t : Total χ α) (c : χ) (data : α) (id : Nat) : Total χ α :=
  ⟨t.value + data, Function.update t.used c (id + 1)⟩

/-- The properties read, and the attributes written, by one access: the new
attributes and locals, and the accesses it puts in front. `none` where it
raises: `None` is no array.
mirrors catkit2/base_services/bmc_deformable_mirror.py:42-106 -/
def run (m : Mirror χ α β) (a : Attributes χ α β) (l : Locals χ α β) :
    Op χ → Option (Attributes χ α β × Locals χ α β × List (Op χ))
  | .newest _ | .available _ | .add _ | .sendData => none
  | .setSurface => some ({ a with _surface := l.total_surface }, l, [])
  | .clearVoltages => some ({ a with _voltages := none }, l, [])
  | .clearDiscretizedSurface => some ({ a with _discretized_surface := none }, l, [])
  | .clearDiscretizedVoltages => some ({ a with _discretized_voltages := none }, l, [])
  | .voltages =>
    match a._voltages with
    | none => some (a, l, [.computeVoltages, .storeVoltages, .returnVoltages])
    | some _ => some (a, l, [.returnVoltages])
  | .computeVoltages =>
    some (a, { l with voltages := some ⟨m.voltages a._surface.value, a._surface⟩ }, [])
  | .storeVoltages => some ({ a with _voltages := l.voltages }, l, [])
  | .returnVoltages => some (a, { l with voltages := a._voltages }, [])
  | .discretizedVoltages =>
    match a._discretized_voltages, m.discretize with
    | none, none => some (a, l, [.voltages, .storeDiscretizedVoltages, .returnDiscretizedVoltages])
    | none, some _ =>
      some (a, l, [.voltages, .storeDiscretizedVoltages, .voltages, .discretize, .returnDiscretizedVoltages])
    | some _, _ => some (a, l, [.returnDiscretizedVoltages])
  | .storeDiscretizedVoltages =>
    some ({ a with _discretized_voltages := l.voltages.map (·.value) }, l, [])
  | .discretize =>
    match m.discretize, l.voltages with
    | some f, some v => some ({ a with _discretized_voltages := some (f v.value) }, l, [])
    | _, _ => none
  | .returnDiscretizedVoltages =>
    some (a, { l with discretized_voltages := a._discretized_voltages }, [])
  | .discretizedSurface =>
    match a._discretized_surface, m.discretize with
    | none, none => some (a, l, [.storeDiscretizedSurface, .returnDiscretizedSurface])
    | none, some _ =>
      some (a, l, [.storeDiscretizedSurface, .discretizedVoltages, .invert, .returnDiscretizedSurface])
    | some _, _ => some (a, l, [.returnDiscretizedSurface])
  | .storeDiscretizedSurface =>
    some ({ a with _discretized_surface := some a._surface.value }, l, [])
  | .invert =>
    match l.discretized_voltages with
    | some v => some ({ a with _discretized_surface := some (m.surface v) }, l, [])
    | none => none
  | .returnDiscretizedSurface =>
    some (a, { l with discretized_surface := a._discretized_surface }, [])
  | .submitSurface =>
    match l.discretized_surface with
    | some x => some ({ a with total_surface := a.total_surface ++ [x] }, l, [])
    | none => none
  | .submitVoltage =>
    match l.discretized_voltages with
    | some v => some ({ a with total_voltage := a.total_voltage ++ [v] }, l, [])
    | none => none

namespace State

variable [DecidableEq χ] [Zero α] [Add α]

def goto (s : State χ α β) (c : χ) (t : Thread χ α β) : State χ α β :=
  { s with thread := Function.update s.thread c t }

/-- One access of the thread of `c`.
mirrors catkit2/base_services/deformable_mirror.py:97-125, catkit_core/DataStream.cpp:319-348, 383-389 -/
def access (m : Mirror χ α β) (s : State χ α β) (c : χ) (status : Status) (l : Locals χ α β) :
    List (Op χ) → State χ α β
  | [] => s.goto c .waiting
  | .newest d :: ops =>
    if (s.frames d).isEmpty then s.goto c .dead
    else s.goto c (.inside ops { l with newest := (s.frames d).length - 1 })
  | .available d :: ops =>
    if firstId (s.frames d) ≤ l.newest then s.goto c (.inside ops l) else s.goto c .dead
  | .add d :: ops =>
    match (s.frames d)[inSlot (s.frames d) l.newest]? with
    | some data =>
      s.goto c (.inside ops
        { l with total_surface := l.total_surface.add d data (inSlot (s.frames d) l.newest) })
    | none => s.goto c .dead
  | .sendData :: ops =>
    match l.voltages, status with
    | some v, .NO_ERR => { s.goto c (.inside ops l) with device := v, sent := l.total_surface.used }
    | _, _ => s.goto c .dead
  | op :: ops =>
    match run m s.self l op with
    | some (a, l', first) => { s.goto c (.inside (first ++ ops) l') with self := a }
    | none => s.goto c .dead

def enter : Locals χ α β := ⟨0, .zero, none, none, none⟩

/-- `take` is `get_next_frame` where it returns, `NEWEST_ONLY` as the mode is.
mirrors catkit2/base_services/deformable_mirror.py:97-112 -/
def step (m : Mirror χ α β) (s : State χ α β) : Label χ α → Option (State χ α β)
  | .submit c data => some { s with frames := Function.update s.frames c (s.frames c ++ [data]) }
  | .take c =>
    match s.thread c with
    | .waiting =>
      if c ∈ m.channels ∧ s.taken c < (s.frames c).length then
        some { s.goto c (.inside (updateDm m) enter) with
          taken := Function.update s.taken c (s.frames c).length }
      else none
    | _ => none
  | .access c status =>
    match s.thread c with
    | .inside ops l => some (s.access m c status l ops)
    | _ => none

/-- The startup maps are submitted and the zero surface is sent, then the
threads are started.
mirrors catkit2/base_services/deformable_mirror.py:45-81, bmc_deformable_mirror.py:22-35 -/
def init (m : Mirror χ α β) (s : State χ α β) : Prop :=
  (∀ c ∈ m.channels, s.frames c ≠ []) ∧ (∀ c, s.taken c = 0) ∧ (∀ c, s.thread c = .waiting) ∧
    s.self._surface = .zero ∧ s.self._voltages = some ⟨m.voltages 0, .zero⟩ ∧
    s.device = ⟨m.voltages 0, .zero⟩ ∧ ∀ c, s.sent c = 0

end State

def mirror [DecidableEq χ] [Zero α] [Add α] (m : Mirror χ α β) : LTS (State χ α β) (Label χ α) :=
  .ofFn (State.init m) (State.step m)

/-! ## When a thread may go on -/

namespace Op

/-- Neither reads a channel nor sends. -/
def plain : Op χ → Bool
  | .newest _ | .available _ | .add _ | .sendData => false
  | _ => true

def isSend : Op χ → Bool
  | .sendData => true
  | _ => false

def isSet : Op χ → Bool
  | .setSurface => true
  | _ => false

end Op

/-- The thread has set the surface and not yet sent it. -/
def Thread.sending : Thread χ α β → Bool
  | .inside ops _ => ops.any Op.isSend && !ops.any Op.isSet
  | _ => false

/-- When the thread of `c` makes an access: the frame that it reads is still available; no
other thread is between its surface and its send when it uses an attribute; and when it sends,
the device accepts that, and it has read of no channel an older frame than the thread that
sent last. -/
def Undisturbed (m : Mirror χ α β) (s : State χ α β) : Label χ α → Prop
  | .access c status =>
    match s.thread c with
    | .inside (.available d :: _) l => firstId (s.frames d) ≤ l.newest
    | .inside (.sendData :: _) l =>
      status = .NO_ERR ∧ ∀ d ∈ m.channels, s.sent d ≤ l.total_surface.used d
    | .inside (op :: _) _ => op.plain = true → ∀ d ∈ m.channels, d ≠ c → (s.thread d).sending = false
    | _ => True
  | _ => True

/-! ## The sum of the latest frames -/

variable {m : Mirror χ α β} {s s' : State χ α β}

section

variable [Add α] [DecidableEq χ]

@[simp] theorem Total.add_used_self (t : Total χ α) (c : χ) (data : α) (id : Nat) :
    (t.add c data id).used c = id + 1 := by
  simp [Total.add]

theorem Total.add_used_of_ne (t : Total χ α) {c d : χ} (hne : d ≠ c) (data : α) (id : Nat) :
    (t.add c data id).used d = t.used d := by
  simp [Total.add, hne]

end

section

variable [Zero α] [Add α]

/-- The last frames of the channels `cs`, added up. -/
def sum (frames : χ → List α) (cs : List χ) : α :=
  cs.foldl (fun total c =>
    match (frames c).getLast? with
    | some data => total + data
    | none => total) 0

theorem sum_snoc {frames : χ → List α} {c : χ} {data : α} (h : (frames c).getLast? = some data)
    (cs : List χ) : sum frames (cs ++ [c]) = sum frames cs + data := by
  unfold sum
  rw [List.foldl_append, List.foldl_cons, List.foldl_nil, h]

theorem sum_congr {f g : χ → List α} {cs : List χ} (h : ∀ c ∈ cs, f c = g c) : sum f cs = sum g cs := by
  unfold sum
  refine List.foldl_ext _ _ _ fun total c hc => ?_
  rw [h c hc]

/-- `t` adds a frame of each channel of `cs`. -/
structure Adds (frames : χ → List α) (cs : List χ) (t : Total χ α) : Prop where
  used : ∀ c ∈ cs, 0 < t.used c ∧ t.used c ≤ (frames c).length
  value : t.value = sum (fun c => (frames c).take (t.used c)) cs

variable {frames frames' : χ → List α}

theorem Adds.nil : Adds frames [] (.zero : Total χ α) := by
  refine ⟨fun c hc => ?_, rfl⟩
  cases hc

/-- More frames leave the ones that were read. -/
theorem Adds.mono (hf : ∀ c, frames c <+: frames' c) {cs : List χ} {t : Total χ α}
    (h : Adds frames cs t) : Adds frames' cs t := by
  refine ⟨fun c hc => ⟨(h.used c hc).1, Nat.le_trans (h.used c hc).2 (hf c).length_le⟩, ?_⟩
  rw [h.value]
  refine sum_congr fun c hc => ?_
  obtain ⟨l, hl⟩ := hf c
  rw [← hl, List.take_append_of_le_length (h.used c hc).2]

/-- Adding a frame of one more channel. -/
theorem Adds.add [DecidableEq χ] {cs : List χ} {t : Total χ α} (h : Adds frames cs t) {c : χ}
    (hc : c ∉ cs) {data : α} {id : Nat} (hd : (frames c)[id]? = some data) :
    Adds frames (cs ++ [c]) (t.add c data id) := by
  have hother : ∀ d ∈ cs, (t.add c data id).used d = t.used d := by
    intro d hdcs
    have hne : d ≠ c := fun heq => hc (heq ▸ hdcs)
    exact t.add_used_of_ne hne data id
  obtain ⟨hlt, hdata⟩ := List.getElem?_eq_some_iff.mp hd
  refine ⟨fun d hdcs => ?_, ?_⟩
  · rcases List.mem_append.mp hdcs with hdcs | hdcs
    · rw [hother d hdcs]; exact h.used d hdcs
    · rw [List.mem_singleton] at hdcs
      subst hdcs
      rw [Total.add_used_self]; exact ⟨Nat.succ_pos _, hlt⟩
  · have hlast : ((frames c).take ((t.add c data id).used c)).getLast? = some data := by
      rw [Total.add_used_self, List.take_succ_eq_append_getElem hlt, hdata, List.getLast?_concat]
    have hsum : sum (fun d => (frames d).take ((t.add c data id).used d)) (cs ++ [c])
        = sum (fun d => (frames d).take ((t.add c data id).used d)) cs + data := sum_snoc (by exact hlast) cs
    show t.value + data = sum (fun d => (frames d).take ((t.add c data id).used d)) (cs ++ [c])
    rw [hsum, h.value]
    congr 1
    refine sum_congr fun d hdcs => ?_
    rw [hother d hdcs]

end

theorem access_plain [DecidableEq χ] [Add α] (m : Mirror χ α β) (s : State χ α β) (c : χ) (status : Status)
    (l : Locals χ α β) {op : Op χ} (hop : op.plain = true) (ops : List (Op χ)) :
    s.access m c status l (op :: ops) = match run m s.self l op with
      | some (a, l', first) => { s.goto c (.inside (first ++ ops) l') with self := a }
      | none => s.goto c .dead := by
  cases op with
  | newest d | available d | add d | sendData => cases hop
  | _ => rfl

/-- An access that neither reads a channel nor sends is guarded by the other threads. -/
theorem undisturbed_plain {c : χ} {status : Status} {l : Locals χ α β} {op : Op χ} {ops : List (Op χ)}
    (hc : s.thread c = .inside (op :: ops) l) (hop : op.plain = true) (hg : Undisturbed m s (.access c status)) :
    ∀ d ∈ m.channels, d ≠ c → (s.thread d).sending = false := by
  simp only [Undisturbed, hc] at hg
  cases op with
  | newest d | available d | add d | sendData => cases hop
  | _ => exact hg rfl

/-! ## Slots -/

theorem le_inSlot (frames : List α) (id : Nat) : id ≤ inSlot frames id := Nat.le_add_right _ _

theorem inSlot_lt {frames : List α} {id : Nat} (h : id < frames.length) : inSlot frames id < frames.length := by
  have := Nat.div_mul_le_self (frames.length - 1 - id) numFramesInBuffer
  unfold inSlot
  omega

/-! ## On the way to a send -/

/-- The voltages of a surface. -/
def Total.voltages (m : Mirror χ α β) (t : Total χ α) : Voltages χ α β := ⟨m.voltages t.value, t⟩

/-- What is left up to the send, and what holds of the attributes there, if nobody else uses them. -/
inductive Sending (m : Mirror χ α β) (a : Attributes χ α β) (l : Locals χ α β) : List (Op χ) → Prop
  | set : a._surface = l.total_surface →
      Sending m a l [.clearVoltages, .clearDiscretizedSurface, .clearDiscretizedVoltages, .voltages]
  | cleared : a._surface = l.total_surface → a._voltages = none →
      Sending m a l [.clearDiscretizedSurface, .clearDiscretizedVoltages, .voltages]
  | clearedSurface : a._surface = l.total_surface → a._voltages = none →
      Sending m a l [.clearDiscretizedVoltages, .voltages]
  | voltages : a._surface = l.total_surface → a._voltages = none → Sending m a l [.voltages]
  | compute : a._surface = l.total_surface → Sending m a l [.computeVoltages, .storeVoltages, .returnVoltages]
  | store : l.voltages = some (l.total_surface.voltages m) → Sending m a l [.storeVoltages, .returnVoltages]
  | return : a._voltages = some (l.total_surface.voltages m) → Sending m a l [.returnVoltages]
  | send : l.voltages = some (l.total_surface.voltages m) → Sending m a l []

/-- One access on the way does not raise. -/
theorem Sending.run {a : Attributes χ α β} {l : Locals χ α β} {op : Op χ} {pre : List (Op χ)}
    (h : Sending m a l (op :: pre)) : ∃ a' l' first, run m a l op = some (a', l', first) ∧
      Sending m a' l' (first ++ pre) ∧ l'.total_surface = l.total_surface := by
  cases h with
  | set hs => exact ⟨_, _, _, rfl, .cleared hs rfl, rfl⟩
  | cleared hs hv => exact ⟨_, _, _, rfl, .clearedSurface hs hv, rfl⟩
  | clearedSurface hs hv => exact ⟨_, _, _, rfl, .voltages hs hv, rfl⟩
  | voltages hs hv =>
    refine ⟨a, l, [.computeVoltages, .storeVoltages, .returnVoltages], ?_, .compute hs, rfl⟩
    simp only [L5.run, hv]
  | compute hs =>
    refine ⟨_, _, _, rfl, .store ?_, rfl⟩
    simp only [hs, Total.voltages]
  | store hv => exact ⟨_, _, _, rfl, .return hv, rfl⟩
  | «return» hv => exact ⟨_, _, _, rfl, .send hv, rfl⟩

theorem Sending.plain {a : Attributes χ α β} {l : Locals χ α β} {op : Op χ} {pre : List (Op χ)}
    (h : Sending m a l (op :: pre)) : op.plain = true := by
  cases h <;> rfl

theorem Sending.no_set {a : Attributes χ α β} {l : Locals χ α β} {pre : List (Op χ)} (h : Sending m a l pre) :
    pre.any Op.isSet = false := by
  cases h <;> rfl

/-- What an access puts in front neither reads a channel nor sends. -/
theorem run_plain {op : Op χ} {a a' : Attributes χ α β} {l l' : Locals χ α β} {first : List (Op χ)}
    (h : run m a l op = some (a', l', first)) : ∀ x ∈ first, x.plain = true := by
  cases op with
  | newest c | available c | add c | sendData => cases h
  | setSurface | clearVoltages | clearDiscretizedSurface | clearDiscretizedVoltages | computeVoltages
  | storeVoltages | returnVoltages | storeDiscretizedVoltages | returnDiscretizedVoltages
  | storeDiscretizedSurface | returnDiscretizedSurface => cases h; simp
  | voltages | discretizedVoltages | discretizedSurface =>
    simp only [run] at h
    split at h <;> cases h <;> simp [Op.plain]
  | discretize | invert | submitSurface | submitVoltage =>
    simp only [run] at h
    split at h <;> cases h
    simp

/-! ## The invariant -/

/-- What is left after the send. -/
def afterSend : List (Op χ) := [.discretizedSurface, .submitSurface, .discretizedVoltages, .submitVoltage]

/-- The thread that sent last had read a frame of `c` as new as the one that the thread of `c` took. -/
def Sent (m : Mirror χ α β) (s : State χ α β) (c : χ) : Prop :=
  c ∈ m.channels → s.taken c ≤ s.sent c

/-- It is after the frame `id` of `d`. -/
structure After (s : State χ α β) (c d : χ) (id : Nat) : Prop where
  lt : id < (s.frames d).length
  own : d = c → s.taken c ≤ id + 1

/-- `s'` comes after `s`, as the thread of `c` sees it: at `t` it does not need the attributes,
or they are the same. -/
structure Later (m : Mirror χ α β) (s s' : State χ α β) (c : χ) (t : Thread χ α β) : Prop where
  frames : ∀ d, s.frames d <+: s'.frames d
  taken : s'.taken c = s.taken c
  sent : ∀ d ∈ m.channels, s.sent d ≤ s'.sent d
  self : t.sending = true → s'.self = s.self

/-- Nothing but a thread changes. -/
theorem Later.same {c : χ} {t : Thread χ α β} (hf : s'.frames = s.frames) (ht : s'.taken = s.taken)
    (hs : s'.sent = s.sent) (hself : t.sending = true → s'.self = s.self) : Later m s s' c t := by
  refine ⟨fun d => ⟨[], ?_⟩, by rw [ht], fun d _ => ?_, hself⟩
  · rw [hf, List.append_nil]
  · rw [hs]

theorem Sent.later {c : χ} {t : Thread χ α β} (hl : Later m s s' c t) (h : Sent m s c) : Sent m s' c := by
  intro hc
  rw [hl.taken]
  exact Nat.le_trans (h hc) (hl.sent c hc)

theorem After.later {c d : χ} {t : Thread χ α β} {id : Nat} (hl : Later m s s' c t) (h : After s c d id) :
    After s' c d id := by
  refine ⟨Nat.lt_of_lt_of_le h.lt (hl.frames d).length_le, fun hd => ?_⟩
  rw [hl.taken]
  exact h.own hd

variable [Zero α] [Add α]

/-- The thread of `c` has read the channels `done`, its own as far as it took it. -/
structure Read (s : State χ α β) (c : χ) (done : List χ) (t : Total χ α) : Prop where
  adds : Adds s.frames done t
  own : c ∈ done → s.taken c ≤ t.used c

/-- Where a thread is. -/
inductive ThreadOk (m : Mirror χ α β) (s : State χ α β) (c : χ) : Thread χ α β → Prop
  | waiting : Sent m s c → ThreadOk m s c .waiting
  | dead : Sent m s c → ThreadOk m s c .dead
  | reading {l : Locals χ α β} (done todo : List χ) : m.channels = done ++ todo →
      Read s c done l.total_surface → ThreadOk m s c (.inside (todo.flatMap getLatestFrame ++ sendSurface) l)
  | available {l : Locals χ α β} (done : List χ) (d : χ) (todo : List χ) : m.channels = done ++ d :: todo →
      Read s c done l.total_surface → After s c d l.newest →
      ThreadOk m s c (.inside (.available d :: .add d :: (todo.flatMap getLatestFrame ++ sendSurface)) l)
  | adding {l : Locals χ α β} (done : List χ) (d : χ) (todo : List χ) : m.channels = done ++ d :: todo →
      Read s c done l.total_surface → After s c d l.newest →
      ThreadOk m s c (.inside (.add d :: (todo.flatMap getLatestFrame ++ sendSurface)) l)
  | sending {l : Locals χ α β} (pre : List (Op χ)) : Read s c m.channels l.total_surface →
      Sending m s.self l pre → ThreadOk m s c (.inside (pre ++ .sendData :: afterSend) l)
  | sent {l : Locals χ α β} (ops : List (Op χ)) : (∀ op ∈ ops, op.plain = true) → Sent m s c →
      ThreadOk m s c (.inside ops l)

structure Inv (m : Mirror χ α β) (s : State χ α β) : Prop where
  frames : ∀ c ∈ m.channels, s.frames c ≠ []
  taken : ∀ c, s.taken c ≤ (s.frames c).length
  value : s.device = s.device.of.voltages m
  device : s.device.of = .zero ∨ Adds s.frames m.channels s.device.of
  used : s.device.of.used = s.sent
  idle : ∀ c, c ∉ m.channels → s.thread c = .waiting
  thread : ∀ c, ThreadOk m s c (s.thread c)

/-! ## What a step of another thread keeps -/

theorem Read.later {c : χ} {t : Thread χ α β} (hl : Later m s s' c t) {done : List χ} {total : Total χ α}
    (h : Read s c done total) : Read s' c done total := by
  refine ⟨h.adds.mono hl.frames, fun hc => ?_⟩
  rw [hl.taken]
  exact h.own hc

theorem ThreadOk.later {c : χ} {t : Thread χ α β} (hl : Later m s s' c t) (h : ThreadOk m s c t) :
    ThreadOk m s' c t := by
  cases h with
  | waiting hs => exact .waiting (hs.later hl)
  | dead hs => exact .dead (hs.later hl)
  | reading done todo hc hr => exact .reading done todo hc (hr.later hl)
  | available done d todo hc hr ha => exact .available done d todo hc (hr.later hl) (ha.later hl)
  | adding done d todo hc hr ha => exact .adding done d todo hc (hr.later hl) (ha.later hl)
  | sending pre hr hs =>
    have hself : s'.self = s.self := hl.self (by simp [Thread.sending, hs.no_set, afterSend, Op.isSend, Op.isSet])
    exact .sending pre (hr.later hl) (hself ▸ hs)
  | sent ops hops hs => exact .sent ops hops (hs.later hl)

/-! ## What one step keeps -/

variable [DecidableEq χ]

/-- The thread of `c` went on to `t`, and changed none but the attributes, which no other
thread needs. -/
theorem Inv.moved (h : Inv m s) {c : χ} (hc : c ∈ m.channels) (t : Thread χ α β) (hf : s'.frames = s.frames)
    (htaken : s'.taken = s.taken) (ht : s'.thread = Function.update s.thread c t) (hdev : s'.device = s.device)
    (hsent : s'.sent = s.sent) (hself : ∀ d ∈ m.channels, d ≠ c → (s.thread d).sending = true → s'.self = s.self)
    (hok : ThreadOk m s' c t) : Inv m s' := by
  refine ⟨?_, ?_, ?_, ?_, ?_, fun d hd => ?_, fun d => ?_⟩
  · rw [hf]; exact h.frames
  · rw [hf, htaken]; exact h.taken
  · rw [hdev]; exact h.value
  · rw [hdev, hf]; exact h.device
  · rw [hdev, hsent]; exact h.used
  · have hne : d ≠ c := fun heq => hd (heq ▸ hc)
    rw [ht, Function.update_of_ne hne]
    exact h.idle d hd
  · rw [ht]
    by_cases hd : d = c
    · subst hd; rw [Function.update_self]; exact hok
    · rw [Function.update_of_ne hd]
      refine (h.thread d).later (.same hf htaken hsent fun hsending => ?_)
      by_cases hdm : d ∈ m.channels
      · exact hself d hdm hd hsending
      · rw [h.idle d hdm] at hsending
        cases hsending

/-- A read of the newest id. -/
theorem inv_newest (h : Inv m s) {c d : χ} {status : Status} {l : Locals χ α β} {done todo : List χ}
    (hc : c ∈ m.channels) (hch : m.channels = done ++ d :: todo) (hr : Read s c done l.total_surface) :
    Inv m (s.access m c status l (.newest d :: .available d :: .add d :: (todo.flatMap getLatestFrame ++ sendSurface))) := by
  have hne : s.frames d ≠ [] := h.frames d (by rw [hch]; simp)
  have hpos := List.length_pos_iff.mpr hne
  simp only [State.access, List.isEmpty_iff, hne, if_false]
  refine h.moved hc _ rfl rfl rfl rfl rfl (fun _ _ _ _ => rfl) ?_
  have hafter : After s c d ((s.frames d).length - 1) := by
    refine ⟨Nat.sub_lt hpos Nat.one_pos, fun hd => ?_⟩
    have := h.taken d
    rw [← hd]
    omega
  exact .available done d todo hch ⟨hr.adds, hr.own⟩ ⟨hafter.lt, hafter.own⟩

/-- The frame is available. -/
theorem inv_available (h : Inv m s) {c d : χ} {status : Status} {l : Locals χ α β} {done todo : List χ}
    (hc : c ∈ m.channels) (hch : m.channels = done ++ d :: todo) (hr : Read s c done l.total_surface)
    (ha : After s c d l.newest) (hfirst : firstId (s.frames d) ≤ l.newest) :
    Inv m (s.access m c status l (.available d :: .add d :: (todo.flatMap getLatestFrame ++ sendSurface))) := by
  simp only [State.access, hfirst, if_true]
  refine h.moved hc _ rfl rfl rfl rfl rfl (fun _ _ _ _ => rfl) ?_
  exact .adding done d todo hch ⟨hr.adds, hr.own⟩ ⟨ha.lt, ha.own⟩

/-- Adding what is in its slot, a frame no older. -/
theorem inv_add (h : Inv m s) {c d : χ} {status : Status} {l : Locals χ α β} {done todo : List χ}
    (hc : c ∈ m.channels) (hch : m.channels = done ++ d :: todo) (hr : Read s c done l.total_surface)
    (ha : After s c d l.newest) :
    Inv m (s.access m c status l (.add d :: (todo.flatMap getLatestFrame ++ sendSurface))) := by
  have hnd : d ∉ done := by
    have := m.nodup
    rw [hch] at this
    intro hd
    exact (List.nodup_append.mp this).2.2 d hd d List.mem_cons_self rfl
  have hlt := inSlot_lt ha.lt
  have hle := le_inSlot (s.frames d) l.newest
  obtain ⟨data, hdata⟩ : ∃ data, (s.frames d)[inSlot (s.frames d) l.newest]? = some data :=
    ⟨_, List.getElem?_eq_getElem hlt⟩
  simp only [State.access, hdata]
  refine h.moved hc _ rfl rfl rfl rfl rfl (fun _ _ _ _ => rfl) ?_
  refine .reading (done ++ [d]) todo (by rw [hch, List.append_assoc, List.singleton_append]) ⟨hr.adds.add hnd hdata, ?_⟩
  intro hcd
  show s.taken c ≤ (l.total_surface.add d data (inSlot (s.frames d) l.newest)).used c
  by_cases hdc : d = c
  · have hown := ha.own hdc
    subst hdc
    rw [Total.add_used_self]
    omega
  · rw [Total.add_used_of_ne _ (Ne.symm hdc)]
    rcases List.mem_append.mp hcd with hcd | hcd
    · exact hr.own hcd
    · exact absurd (List.mem_singleton.mp hcd).symm hdc

/-- The thread sets its surface. -/
theorem inv_set (h : Inv m s) {c : χ} {status : Status} {l : Locals χ α β} (hc : c ∈ m.channels)
    (hr : Read s c m.channels l.total_surface)
    (hg : ∀ d ∈ m.channels, d ≠ c → (s.thread d).sending = false) :
    Inv m (s.access m c status l sendSurface) := by
  refine h.moved hc _ rfl rfl rfl rfl rfl (fun d hd hne ht => by rw [hg d hd hne] at ht; cases ht) ?_
  exact .sending [.clearVoltages, .clearDiscretizedSurface, .clearDiscretizedVoltages, .voltages]
    ⟨hr.adds, hr.own⟩ (.set rfl)

/-- One access between the surface and the send. -/
theorem inv_sending (h : Inv m s) {c : χ} {status : Status} {l : Locals χ α β} {op : Op χ} {pre : List (Op χ)}
    (hc : c ∈ m.channels) (hr : Read s c m.channels l.total_surface) (hs : Sending m s.self l (op :: pre))
    (hg : ∀ d ∈ m.channels, d ≠ c → (s.thread d).sending = false) :
    Inv m (s.access m c status l (op :: (pre ++ .sendData :: afterSend))) := by
  obtain ⟨a, l', first, hrun, hs', htotal⟩ := hs.run
  rw [access_plain m s c status l hs.plain, hrun]
  refine h.moved hc _ rfl rfl rfl rfl rfl (fun d hd hne ht => by rw [hg d hd hne] at ht; cases ht) ?_
  rw [← List.append_assoc]
  exact .sending (first ++ pre) (htotal ▸ ⟨hr.adds, hr.own⟩) hs'

/-- The send. -/
theorem inv_send (h : Inv m s) {c : χ} {l : Locals χ α β} (hc : c ∈ m.channels)
    (hr : Read s c m.channels l.total_surface) (hs : Sending m s.self l [])
    (hg : ∀ d ∈ m.channels, s.sent d ≤ l.total_surface.used d) :
    Inv m (s.access m c .NO_ERR l (.sendData :: afterSend)) := by
  have hv : l.voltages = some (l.total_surface.voltages m) := by
    cases hs with
    | send hv => exact hv
  simp only [State.access, hv]
  refine ⟨h.frames, h.taken, rfl, .inr hr.adds, rfl, fun d hd => ?_, fun d => ?_⟩
  · have hne : d ≠ c := fun heq => hd (heq ▸ hc)
    exact (Function.update_of_ne hne _ _).trans (h.idle d hd)
  · by_cases hd : d = c
    · subst hd
      refine Eq.mpr (congrArg _ (Function.update_self _ _ _)) ?_
      exact .sent afterSend (by simp [afterSend, Op.plain]) fun _ => hr.own hc
    · refine Eq.mpr (congrArg _ (Function.update_of_ne hd _ _)) ?_
      refine ThreadOk.later (s := s) ?_ (h.thread d)
      exact ⟨fun _ => List.prefix_refl _, rfl, hg, fun _ => rfl⟩

/-- One access after the send. -/
theorem inv_sent (h : Inv m s) {c : χ} {status : Status} {l : Locals χ α β} {ops : List (Op χ)}
    (hc : c ∈ m.channels) (hops : ∀ x ∈ ops, x.plain = true) (hs : Sent m s c)
    (hg : ops ≠ [] → ∀ d ∈ m.channels, d ≠ c → (s.thread d).sending = false) :
    Inv m (s.access m c status l ops) := by
  cases ops with
  | nil => exact h.moved hc _ rfl rfl rfl rfl rfl (fun _ _ _ _ => rfl) (.waiting hs)
  | cons op ops =>
    rw [access_plain m s c status l (hops op List.mem_cons_self)]
    split
    · rename_i a l' first hrun
      refine h.moved hc _ rfl rfl rfl rfl rfl
        (fun d hd hne ht => by rw [hg (by simp) d hd hne] at ht; cases ht) ?_
      refine .sent _ (fun x hx => ?_) hs
      rcases List.mem_append.mp hx with hx | hx
      · exact run_plain hrun x hx
      · exact hops x (List.mem_cons_of_mem _ hx)
    · exact h.moved hc _ rfl rfl rfl rfl rfl (fun _ _ _ _ => rfl) (.dead hs)

/-- **One access** of a thread, wherever it is. -/
theorem inv_access (h : Inv m s) {c : χ} {status : Status} {ops : List (Op χ)} {l : Locals χ α β}
    (hth : s.thread c = .inside ops l) (hg : Undisturbed m s (.access c status)) :
    Inv m (s.access m c status l ops) := by
  have hc : c ∈ m.channels := by
    by_contra hc
    rw [h.idle c hc] at hth
    cases hth
  have hok := h.thread c
  rw [hth] at hok
  cases hok with
  | reading done todo hch hr =>
    cases todo with
    | cons d todo => exact inv_newest h hc hch hr
    | nil =>
      rw [List.append_nil] at hch
      exact inv_set h hc (hch ▸ hr) (undisturbed_plain hth rfl hg)
  | available done d todo hch hr ha =>
    simp only [Undisturbed, hth] at hg
    exact inv_available h hc hch hr ha hg
  | adding done d todo hch hr ha => exact inv_add h hc hch hr ha
  | sending pre hr hs =>
    cases pre with
    | cons op pre => exact inv_sending h hc hr hs (undisturbed_plain hth hs.plain hg)
    | nil =>
      simp only [Undisturbed, hth, List.nil_append] at hg
      obtain ⟨rfl, hg⟩ := hg
      exact inv_send h hc hr hs hg
  | sent _ hops hs =>
    refine inv_sent h hc hops hs fun hne => ?_
    cases ops with
    | nil => exact absurd rfl hne
    | cons op ops => exact undisturbed_plain hth (hops op List.mem_cons_self) hg

theorem inv_submit (h : Inv m s) (c : χ) (data : α) :
    Inv m { s with frames := Function.update s.frames c (s.frames c ++ [data]) } := by
  have hext : ∀ d, s.frames d <+: Function.update s.frames c (s.frames c ++ [data]) d := by
    intro d
    by_cases hd : d = c
    · subst hd; exact ⟨[data], by rw [Function.update_self]⟩
    · exact ⟨[], by rw [Function.update_of_ne hd, List.append_nil]⟩
  refine ⟨fun d hd hn => ?_, fun d => Nat.le_trans (h.taken d) (hext d).length_le, h.value, ?_, h.used, h.idle,
    fun d => (h.thread d).later ⟨hext, rfl, fun _ _ => Nat.le_refl _, fun _ => rfl⟩⟩
  · have hle := (hext d).length_le
    rw [show Function.update s.frames c (s.frames c ++ [data]) d = [] from hn] at hle
    exact h.frames d hd (List.length_eq_zero_iff.mp (Nat.le_zero.mp hle))
  · rcases h.device with hz | ha
    · exact .inl hz
    · exact .inr (ha.mono hext)

theorem inv_take (h : Inv m s) {c : χ} (hc : c ∈ m.channels) :
    Inv m { s.goto c (.inside (updateDm m) State.enter) with
      taken := Function.update s.taken c (s.frames c).length } := by
  have hlater : ∀ d, d ≠ c → Later m s { s.goto c (.inside (updateDm m) State.enter) with
      taken := Function.update s.taken c (s.frames c).length } d (s.thread d) := fun d hd =>
    ⟨fun _ => List.prefix_refl _, Function.update_of_ne hd _ _, fun _ _ => Nat.le_refl _, fun _ => rfl⟩
  refine ⟨h.frames, fun d => ?_, h.value, h.device, h.used, fun d hd => ?_, fun d => ?_⟩
  · show Function.update s.taken c (s.frames c).length d ≤ (s.frames d).length
    by_cases hd : d = c
    · subst hd; rw [Function.update_self]
    · rw [Function.update_of_ne hd]; exact h.taken d
  · have hne : d ≠ c := fun heq => hd (heq ▸ hc)
    exact (Function.update_of_ne hne _ _).trans (h.idle d hd)
  · by_cases hd : d = c
    · subst hd
      refine Eq.mpr (congrArg _ (Function.update_self _ _ _)) ?_
      exact .reading [] m.channels rfl ⟨.nil, fun hn => by cases hn⟩
    · refine Eq.mpr (congrArg _ (Function.update_of_ne hd _ _)) ?_
      exact (h.thread d).later (hlater d hd)

theorem inv_inductive (m : Mirror χ α β) : ((mirror m).restrict (Undisturbed m)).Inductive (Inv m) := by
  refine ⟨fun s h => ?_, fun s l s' h hst => ?_⟩
  · obtain ⟨hf, ht, hth, -, -, hdev, hsent⟩ := h
    refine ⟨hf, fun c => by rw [ht c]; exact Nat.zero_le _, by rw [hdev]; rfl, .inl (by rw [hdev]), ?_,
      fun c _ => hth c, fun c => ?_⟩
    · rw [hdev]
      exact funext fun c => (hsent c).symm
    · rw [hth c]
      refine .waiting fun _ => ?_
      rw [ht c]; exact Nat.zero_le _
  · obtain ⟨hg, hst⟩ := hst
    simp only [mirror, LTS.ofFn] at hst
    cases l with
    | submit c data =>
      cases hst
      exact inv_submit h c data
    | take c =>
      simp only [State.step] at hst
      split at hst
      · split at hst
        · rename_i hc
          cases hst
          exact inv_take h hc.1
        · cases hst
      · cases hst
    | access c status =>
      simp only [State.step] at hst
      split at hst
      · rename_i ops l hth
        cases hst
        exact inv_access h hth hg
      · cases hst

/-! ## The newest command of every channel -/

/-- No thread is inside `update_dm`, and every frame was taken. -/
def Settled (m : Mirror χ α β) (s : State χ α β) : Prop :=
  ∀ c ∈ m.channels, s.taken c = (s.frames c).length ∧ (s.thread c).isInside = false

/-- The device has the voltages of the latest frames, added up. -/
def Newest (m : Mirror χ α β) (s : State χ α β) : Prop :=
  s.device.of.value = sum s.frames m.channels ∧ s.device.value = m.voltages (sum s.frames m.channels)

/-- **No command is lost.** In every run in which no read raises, no thread disturbs another
one on its way to its send, and no thread sends after one that read newer frames: once every
frame was taken and no thread is inside `update_dm`, the surface that the device has is the
sum of the latest frames of all channels. -/
theorem newest_commands_sent (m : Mirror χ α β) (s : State χ α β)
    (h : ((mirror m).restrict (Undisturbed m)).Reachable s) (hs : Settled m s) : Newest m s := by
  have hinv := (inv_inductive m).reachable s h
  have hsent : ∀ c ∈ m.channels, (s.frames c).length ≤ s.device.of.used c := by
    intro c hc
    obtain ⟨htaken, hout⟩ := hs c hc
    rw [← htaken, hinv.used]
    have hok := hinv.thread c
    cases ht : s.thread c with
    | inside ops l => rw [ht] at hout; cases hout
    | waiting => rw [ht] at hok; cases hok with | waiting hs => exact hs hc
    | dead => rw [ht] at hok; cases hok with | dead hs => exact hs hc
  have hvalue : s.device.of.value = sum s.frames m.channels := by
    rcases hinv.device with hz | ha
    · -- No frame was ever sent: then there is no channel.
      have hnil : m.channels = [] := by
        refine List.eq_nil_iff_forall_not_mem.mpr fun c hc => hinv.frames c hc ?_
        have := hsent c hc
        rw [hz] at this
        exact List.length_eq_zero_iff.mp (Nat.le_zero.mp this)
      rw [hz, hnil]; rfl
    · rw [ha.value]
      refine sum_congr fun c hc => ?_
      exact List.take_of_length_le (hsent c hc)
  refine ⟨hvalue, ?_⟩
  rw [hinv.value]
  show m.voltages s.device.of.value = _
  rw [hvalue]

/-! ## A mirror with two channels -/

inductive Channel where
  | correction | probe
  deriving DecidableEq

/-- One actuator, of the flat voltage 50 and the gain 1. -/
def actuator : Mirror Channel Int Int where
  channels := [.correction, .probe]
  nodup := by decide
  voltages surface := max 0 (min 100 (50 + surface))
  discretize := none
  surface voltage := voltage - 50

/-- Both startup maps are zero. -/
def opened : State Channel Int Int where
  frames _ := [0]
  taken _ := 0
  thread _ := .waiting
  self := ⟨.zero, some ⟨50, .zero⟩, some 50, some 0, [0], [50]⟩
  device := ⟨50, .zero⟩
  sent _ := 0

theorem opened_init : opened.init actuator := by
  refine ⟨fun c _ h => ?_, fun _ => rfl, fun _ => rfl, rfl, rfl, rfl, fun _ => rfl⟩
  cases h

instance (s : State Channel Int Int) (l : Label Channel Int) : Decidable (Undisturbed actuator s l) := by
  unfold Undisturbed
  repeat' split
  all_goals infer_instance

instance (s : State Channel Int Int) : Decidable (Settled actuator s) := by
  unfold Settled
  infer_instance

/-- The thread of `c` makes `n` accesses. -/
def accesses (c : Channel) (n : Nat) : List (Label Channel Int) := List.replicate n (.access c .NO_ERR)

/-- It takes a frame, and goes through `update_dm` alone. -/
def turn (c : Channel) : List (Label Channel Int) := .take c :: accesses c 26

/-- A command to the probe channel, once the startup maps were taken. -/
theorem newest_commands_sent_probe : ∃ s : State Channel Int Int,
    s.frames .probe = [0, 7] ∧ s.device.value = 57 ∧ Newest actuator s := by
  obtain ⟨s, hs, hf, hd, hset⟩ : ∃ s, LTS.exec (LTS.guarded (Undisturbed actuator) (State.step actuator))
      opened (turn .correction ++ turn .probe ++ .submit .probe 7 :: turn .probe) = some s ∧
      s.frames .probe = [0, 7] ∧ s.device.value = 57 ∧ Settled actuator s :=
    ⟨_, rfl, by decide⟩
  refine ⟨s, hf, hd, ?_⟩
  exact newest_commands_sent actuator s (.of_guarded opened_init hs) hset

/-- The thread of the correction channel has added up both channels when the
probe channel gets a command. The other thread sends that; then the first one
sends its older sum. -/
theorem newest_command_lost : ¬ ∀ (χ α β : Type) [DecidableEq χ] [Zero α] [Add α] (m : Mirror χ α β) s,
    (mirror m).Reachable s → Settled m s → Newest m s := by
  intro h
  obtain ⟨s, hs, hset, hd, hf⟩ : ∃ s, LTS.exec (State.step actuator) opened
      (turn .probe ++ .take .correction :: accesses .correction 6 ++ .submit .probe 7 :: turn .probe ++
        accesses .correction 20) = some s ∧
      Settled actuator s ∧ s.device.of.value = 0 ∧ sum s.frames actuator.channels = 7 :=
    ⟨_, rfl, by decide⟩
  have hnew := (h _ _ _ actuator s (.of_exec opened_init hs) hset).1
  rw [hd, hf] at hnew
  cases hnew

end Catkit2.L5
