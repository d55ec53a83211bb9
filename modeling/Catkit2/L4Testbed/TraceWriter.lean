import Catkit2.Core.Except
import Catkit2.Core.Number
import Mathlib.Data.List.Nodup

/-!
# The trace writer (catkit2/testbed/tracing.py)

`TraceWriter._loop` writes an entry for each trace event, and a metadata entry
for each process and thread name that it has not seen. Its locals live on from
one message to the next: `raw_data` and `data` when a message carries no
event, and `metadata` when a thread name is not new.

`thread_names` is keyed by the process alone, and a thread name writes
`metadata` whether it is new or not.

* `faithful_iff`: the lines are the right ones exactly when no message carries
  an event, or each does and no process sends two thread names.
-/
namespace Catkit2.L4.TraceWriter

/-! ## Events (proto/tracing.proto) -/

structure TraceEventInterval where
  name : String
  category : String
  process_id : UInt32
  process_name : String
  thread_id : UInt32
  thread_name : String
  timestamp : UInt64
  duration : UInt64

structure TraceEventInstant where
  name : String
  process_id : UInt32
  process_name : String
  thread_id : UInt32
  thread_name : String
  timestamp : UInt64

structure TraceEventCounter where
  name : String
  series : String
  process_id : UInt32
  process_name : String
  timestamp : UInt64
  counter : Number

/-- The fields of `oneof event`. -/
inductive Event where
  | interval (e : TraceEventInterval)
  | instant (e : TraceEventInstant)
  | counter (e : TraceEventCounter)

/-- A message in which no event is set is `none`. -/
abbrev TraceEvent := Option Event

namespace Event

def process_id : Event → UInt32
  | interval e => e.process_id
  | instant e => e.process_id
  | counter e => e.process_id

def process_name : Event → String
  | interval e => e.process_name
  | instant e => e.process_name
  | counter e => e.process_name

/-- The id and the name of the thread; a counter has no such fields. -/
def thread : Event → Option (UInt32 × String)
  | interval e => some (e.thread_id, e.thread_name)
  | instant e => some (e.thread_id, e.thread_name)
  | counter _ => none

end Event

/-! ## Lines -/

inductive Scalar where
  | str (s : String)
  | int (n : Nat)
  | float (x : Number)
  deriving DecidableEq

inductive Value where
  | scalar (s : Scalar)
  | object (fields : List (String × Scalar))
  deriving DecidableEq

/-- The `dict` that a line is the JSON of. -/
abbrev Entry := List (String × Value)

def str (s : String) : Value := .scalar (.str s)

def int (n : UInt32) : Value := .scalar (.int n.toNat)

/-- A time in microseconds: `/` of two integers is the nearest double. -/
def micros (nanoseconds : Int) : Value := .scalar (.float (Number.round (nanoseconds / 1000)))

/-- The translation of an event.
mirrors catkit2/testbed/tracing.py:107-141 -/
def translate (t_0 : Int) : Event → Entry
  | .interval e => [
    ("name", str e.name),
    ("cat", str e.category),
    ("ph", str "X"),
    ("ts", micros (e.timestamp.toNat - t_0)),
    ("dur", micros e.duration.toNat),
    ("pid", int e.process_id),
    ("tid", int e.thread_id)]
  | .instant e => [
    ("name", str e.name),
    ("ph", str "i"),
    ("ts", micros (e.timestamp.toNat - t_0)),
    ("pid", int e.process_id),
    ("tid", int e.thread_id)]
  | .counter e => [
    ("name", str e.name),
    ("ph", str "C"),
    ("ts", micros (e.timestamp.toNat - t_0)),
    ("pid", int e.process_id),
    ("args", .object [(e.series, .float e.counter)])]

/-- mirrors catkit2/testbed/tracing.py:149-156 -/
def processNameEntry (pid : UInt32) (name : String) : Entry := [
  ("name", str "process_name"),
  ("ph", str "M"),
  ("pid", int pid),
  ("args", .object [("name", .str name)])]

/-- mirrors catkit2/testbed/tracing.py:166-174 -/
def threadNameEntry (pid tid : UInt32) (name : String) : Entry := [
  ("name", str "thread_name"),
  ("ph", str "M"),
  ("pid", int pid),
  ("tid", int tid),
  ("args", .object [("name", .str name)])]

def isMetadata (d : Entry) : Bool := d.lookup "ph" == some (str "M")

/-! ## The loop -/

/-- The locals of `_loop`, and the lines after the header. -/
structure Locals where
  process_names : UInt32 → Option String
  thread_names : UInt32 → Option String
  raw_data : Option Event
  data : Option Entry
  metadata : Option Entry
  lines : List Entry

namespace Locals

def init : Locals := ⟨fun _ => none, fun _ => none, none, none, none, []⟩

def write_json (s : Locals) (d : Entry) : Locals := { s with lines := s.lines ++ [d] }

/-- mirrors catkit2/testbed/tracing.py:107-141 -/
def convert (t_0 : Int) (s : Locals) : TraceEvent → Locals
  | some e => { s with raw_data := some e, data := some (translate t_0 e) }
  | none => s

/-- mirrors catkit2/testbed/tracing.py:143-158 -/
def writeProcessName (s : Locals) (raw_data : Event) : Locals :=
  if raw_data.process_name ≠ "" ∧ s.process_names raw_data.process_id = none then
    { s with
      process_names := Function.update s.process_names raw_data.process_id (some raw_data.process_name)
      metadata := some (processNameEntry raw_data.process_id raw_data.process_name) }.write_json
      (processNameEntry raw_data.process_id raw_data.process_name)
  else s

/-- An unbound `metadata` raises, leaving what was written so far.
mirrors catkit2/testbed/tracing.py:160-176 -/
def writeThreadName (s : Locals) (raw_data : Event) : Except Locals Locals :=
  match raw_data.thread with
  | none => .ok s
  | some (tid, name) =>
    if name = "" then .ok s
    else
      let s := if s.thread_names raw_data.process_id = none then
        { s with
          thread_names := Function.update s.thread_names raw_data.process_id (some name)
          metadata := some (threadNameEntry raw_data.process_id tid name) }
        else s
      match s.metadata with
      | some metadata => .ok (s.write_json metadata)
      | none => .error s

/-- One turn of the loop; `raw_data` and `data` are unbound before the first
event. mirrors catkit2/testbed/tracing.py:103-178 -/
def receive (t_0 : Int) (s : Locals) (m : TraceEvent) : Except Locals Locals :=
  let s := s.convert t_0 m
  match s.raw_data, s.data with
  | some raw_data, some data => do
    let s ← (s.writeProcessName raw_data).writeThreadName raw_data
    return s.write_json data
  | _, _ => .error s

end Locals

/-- The lines that are written after the header, until an exception ends the
thread. mirrors catkit2/testbed/tracing.py:72-178 -/
def written (t_0 : Int) (messages : List TraceEvent) : List Entry :=
  match messages.foldlM (Locals.receive t_0) Locals.init with
  | .ok s => s.lines
  | .error s => s.lines

/-! ## What the lines should be -/

/-- The name that a message gives to a process. -/
def sentProcessName (pid : UInt32) (m : TraceEvent) : Option String :=
  m.bind fun e => if e.process_id = pid ∧ e.process_name ≠ "" then some e.process_name else none

/-- The name that a message gives to a thread. -/
def sentThreadName (pid tid : UInt32) (m : TraceEvent) : Option String :=
  m.bind fun e => e.thread.bind fun (t, name) =>
    if e.process_id = pid ∧ t = tid ∧ name ≠ "" then some name else none

/-- One entry per event, in order, and one per named process and per named
thread, with the name that it was first given. -/
structure Faithful (t_0 : Int) (messages : List TraceEvent) (lines : List Entry) : Prop where
  events : lines.filter (fun d => !isMetadata d) = messages.filterMap (Option.map (translate t_0))
  processNames : ∀ pid name, lines.count (processNameEntry pid name) =
    if messages.findSome? (sentProcessName pid) = some name then 1 else 0
  threadNames : ∀ pid tid name, lines.count (threadNameEntry pid tid name) =
    if messages.findSome? (sentThreadName pid tid) = some name then 1 else 0
  metadata : ∀ d ∈ lines, isMetadata d = true →
    (∃ pid name, d = processNameEntry pid name) ∨ ∃ pid tid name, d = threadNameEntry pid tid name

/-! ## Entries -/

theorem processNameEntry_inj {pid pid' : UInt32} {name name' : String} :
    processNameEntry pid name = processNameEntry pid' name' ↔ pid = pid' ∧ name = name' := by
  simp [processNameEntry, int, UInt32.toNat_inj]

theorem threadNameEntry_inj {pid pid' tid tid' : UInt32} {name name' : String} :
    threadNameEntry pid tid name = threadNameEntry pid' tid' name' ↔
      pid = pid' ∧ tid = tid' ∧ name = name' := by
  simp [threadNameEntry, int, UInt32.toNat_inj]

@[simp] theorem isMetadata_translate (t_0 : Int) (e : Event) : isMetadata (translate t_0 e) = false := by
  cases e <;> simp [isMetadata, translate, str, List.lookup_cons]

@[simp] theorem isMetadata_processNameEntry (pid : UInt32) (name : String) :
    isMetadata (processNameEntry pid name) = true := by
  simp [isMetadata, processNameEntry, List.lookup_cons]

@[simp] theorem isMetadata_threadNameEntry (pid tid : UInt32) (name : String) :
    isMetadata (threadNameEntry pid tid name) = true := by
  simp [isMetadata, threadNameEntry, List.lookup_cons]

theorem ne_translate {d : Entry} (h : isMetadata d = true) (t_0 : Int) (e : Event) :
    translate t_0 e ≠ d := by
  intro heq
  rw [← heq, isMetadata_translate] at h
  cases h

@[simp] theorem processNameEntry_ne (pid pid' tid : UInt32) (name name' : String) :
    processNameEntry pid name ≠ threadNameEntry pid' tid name' := by
  simp [processNameEntry, threadNameEntry, str]

/-! ## One more message -/

/-- The line for a process that is named for the first time. -/
def processLines (messages : List TraceEvent) (e : Event) : List Entry :=
  if e.process_name ≠ "" ∧ messages.findSome? (sentProcessName e.process_id) = none then
    [processNameEntry e.process_id e.process_name]
  else []

/-- The line for a thread that is named for the first time. -/
def threadLines (messages : List TraceEvent) (e : Event) : List Entry :=
  match e.thread with
  | none => []
  | some (tid, name) =>
    if name ≠ "" ∧ messages.findSome? (sentThreadName e.process_id tid) = none then
      [threadNameEntry e.process_id tid name]
    else []

/-- The lines with one name each, when the lines of a message are added. -/
theorem count_snoc {entry : String → Entry} {sent : TraceEvent → Option String}
    {messages : List TraceEvent} {m : TraceEvent} {lines added : List Entry}
    (h : ∀ name, lines.count (entry name) = if messages.findSome? sent = some name then 1 else 0)
    (hadd : ∀ name, added.count (entry name) =
      if messages.findSome? sent = none ∧ sent m = some name then 1 else 0) (name : String) :
    (lines ++ added).count (entry name) =
      if (messages ++ [m]).findSome? sent = some name then 1 else 0 := by
  have hm : [m].findSome? sent = sent m := by
    cases hm : sent m <;> simp [List.findSome?, hm]
  rw [List.count_append, h, hadd, List.findSome?_append, hm]
  cases messages.findSome? sent with
  | none => by_cases hn : sent m = some name <;> simp [hn]
  | some name' => simp

theorem count_processLines (messages : List TraceEvent) (e : Event) (pid : UInt32) (name : String) :
    (processLines messages e).count (processNameEntry pid name) =
      if messages.findSome? (sentProcessName pid) = none ∧ sentProcessName pid (some e) = some name then 1
      else 0 := by
  unfold processLines
  by_cases hpid : e.process_id = pid
  · subst hpid
    cases messages.findSome? (sentProcessName e.process_id) with
    | none =>
      by_cases hname : e.process_name = "" <;>
        simp [hname, sentProcessName, List.count_singleton, processNameEntry_inj]
    | some n => simp
  · have hsent : sentProcessName pid (some e) = none := by simp [sentProcessName, hpid]
    rw [hsent]
    split <;> simp [processNameEntry_inj, hpid]

theorem count_threadLines (messages : List TraceEvent) (e : Event) (pid tid : UInt32) (name : String) :
    (threadLines messages e).count (threadNameEntry pid tid name) =
      if messages.findSome? (sentThreadName pid tid) = none ∧ sentThreadName pid tid (some e) = some name
      then 1 else 0 := by
  unfold threadLines
  cases hthread : e.thread with
  | none => simp [sentThreadName, hthread]
  | some t =>
    obtain ⟨t, n⟩ := t
    dsimp only
    by_cases hids : e.process_id = pid ∧ t = tid
    · obtain ⟨rfl, rfl⟩ := hids
      cases messages.findSome? (sentThreadName e.process_id t) with
      | none =>
        by_cases hname : n = "" <;>
          simp [hname, sentThreadName, hthread, List.count_singleton, threadNameEntry_inj]
      | some n => simp
    · have hsent : sentThreadName pid tid (some e) = none := by
        simp only [sentThreadName, hthread, Option.bind_some]
        exact if_neg fun h => hids ⟨h.1, h.2.1⟩
      have hne : ¬ (e.process_id = pid ∧ t = tid ∧ n = name) := fun h => hids ⟨h.1, h.2.1⟩
      rw [hsent]
      split <;> simp [threadNameEntry_inj, hne]

theorem mem_processLines {messages : List TraceEvent} {e : Event} {d : Entry}
    (h : d ∈ processLines messages e) : ∃ pid name, d = processNameEntry pid name := by
  unfold processLines at h
  split at h
  · exact ⟨_, _, List.mem_singleton.mp h⟩
  · cases h

theorem mem_threadLines {messages : List TraceEvent} {e : Event} {d : Entry}
    (h : d ∈ threadLines messages e) : ∃ pid tid name, d = threadNameEntry pid tid name := by
  unfold threadLines at h
  split at h
  · cases h
  · split at h
    · exact ⟨_, _, _, List.mem_singleton.mp h⟩
    · cases h

/-- The right lines for one more event. -/
theorem faithful_snoc {t_0 : Int} {messages : List TraceEvent} {lines : List Entry} (e : Event)
    (h : Faithful t_0 messages lines) :
    Faithful t_0 (messages ++ [some e])
      (lines ++ (processLines messages e ++ threadLines messages e ++ [translate t_0 e])) := by
  have hp : ∀ d ∈ processLines messages e, isMetadata d = true := by
    intro d hd
    obtain ⟨pid, name, rfl⟩ := mem_processLines hd
    simp
  have ht : ∀ d ∈ threadLines messages e, isMetadata d = true := by
    intro d hd
    obtain ⟨pid, tid, name, rfl⟩ := mem_threadLines hd
    simp
  constructor
  · rw [List.filter_append, h.events, List.filterMap_append, List.filter_append, List.filter_append,
      List.filter_eq_nil_iff.mpr (by simpa using hp), List.filter_eq_nil_iff.mpr (by simpa using ht)]
    simp
  · intro pid
    refine count_snoc (h.processNames pid) fun name => ?_
    have hthread : (threadLines messages e).count (processNameEntry pid name) = 0 := by
      refine List.count_eq_zero.mpr fun hm => ?_
      obtain ⟨pid', tid, name', heq⟩ := mem_threadLines hm
      exact processNameEntry_ne _ _ _ _ _ heq
    have hevent : [translate t_0 e].count (processNameEntry pid name) = 0 :=
      List.count_eq_zero.mpr fun hm => ne_translate (by simp) t_0 e (List.mem_singleton.mp hm).symm
    rw [List.count_append, List.count_append, hthread, hevent]
    exact count_processLines messages e pid name
  · intro pid tid
    refine count_snoc (h.threadNames pid tid) fun name => ?_
    have hprocess : (processLines messages e).count (threadNameEntry pid tid name) = 0 := by
      refine List.count_eq_zero.mpr fun hm => ?_
      obtain ⟨pid', name', heq⟩ := mem_processLines hm
      exact processNameEntry_ne _ _ _ _ _ heq.symm
    have hevent : [translate t_0 e].count (threadNameEntry pid tid name) = 0 :=
      List.count_eq_zero.mpr fun hm => ne_translate (by simp) t_0 e (List.mem_singleton.mp hm).symm
    rw [List.count_append, List.count_append, hprocess, hevent, Nat.zero_add]
    exact count_threadLines messages e pid tid name
  · intro d hd hm
    rw [List.mem_append, List.mem_append, List.mem_append] at hd
    rcases hd with hd | (hd | hd) | hd
    · exact h.metadata d hd hm
    · exact .inl (mem_processLines hd)
    · exact .inr (mem_threadLines hd)
    · rw [List.mem_singleton.mp hd, isMetadata_translate] at hm
      cases hm

/-! ## One turn -/

/-- The process of a message that carries a thread name. -/
def namedThread (m : TraceEvent) : Option UInt32 :=
  m.bind fun e => e.thread.bind fun (_, name) => if name ≠ "" then some e.process_id else none

theorem namedThread_of_sent {pid tid : UInt32} {m : TraceEvent} {name : String}
    (h : sentThreadName pid tid m = some name) : namedThread m = some pid := by
  cases m with
  | none => cases h
  | some e =>
    cases hthread : e.thread with
    | none => simp [sentThreadName, hthread] at h
    | some t =>
      obtain ⟨t, n⟩ := t
      simp only [sentThreadName, Option.bind_some, hthread, Option.ite_none_right_eq_some] at h
      simp [namedThread, hthread, h.1.1, h.1.2.2]

namespace Locals

/-- `metadata` is a metadata entry that has been written, and bound once a
thread has a name. -/
structure Sound (s : Locals) : Prop where
  bound : ∀ pid, s.thread_names pid ≠ none → s.metadata ≠ none
  metadata : ∀ d, s.metadata = some d → isMetadata d = true ∧ d ∈ s.lines

theorem sound_init : init.Sound := ⟨fun _ h => absurd rfl h, fun _ h => by cases h⟩

variable {t_0 : Int} {s w : Locals} {e : Event} {d : Entry} {m : TraceEvent}

@[simp] theorem write_json_lines : (s.write_json d).lines = s.lines ++ [d] := rfl

@[simp] theorem write_json_metadata : (s.write_json d).metadata = s.metadata := rfl

@[simp] theorem write_json_thread_names : (s.write_json d).thread_names = s.thread_names := rfl

@[simp] theorem write_json_process_names : (s.write_json d).process_names = s.process_names := rfl

@[simp] theorem convert_lines : (s.convert t_0 m).lines = s.lines := by cases m <;> rfl

@[simp] theorem convert_metadata : (s.convert t_0 m).metadata = s.metadata := by cases m <;> rfl

@[simp] theorem convert_thread_names : (s.convert t_0 m).thread_names = s.thread_names := by
  cases m <;> rfl

@[simp] theorem convert_process_names : (s.convert t_0 m).process_names = s.process_names := by
  cases m <;> rfl

theorem Sound.convert (h : s.Sound) : (s.convert t_0 m).Sound := by
  constructor
  · simpa using h.bound
  · simpa using h.metadata

theorem Sound.write_json (h : s.Sound) : (s.write_json d).Sound := by
  refine ⟨h.bound, fun d' hd => ?_⟩
  obtain ⟨hm, hmem⟩ := h.metadata d' hd
  exact ⟨hm, List.mem_append_left _ hmem⟩

/-- A process that is named for the first time is written, and remembered. -/
theorem writeProcessName_cases (s : Locals) (e : Event) :
    (∃ d, d = processNameEntry e.process_id e.process_name ∧ e.process_name ≠ "" ∧
      s.process_names e.process_id = none ∧
      s.writeProcessName e = { s with
        process_names := Function.update s.process_names e.process_id (some e.process_name)
        metadata := some d }.write_json d) ∨
    ¬ (e.process_name ≠ "" ∧ s.process_names e.process_id = none) ∧ s.writeProcessName e = s := by
  unfold writeProcessName
  split
  · rename_i h
    exact .inl ⟨_, rfl, h.1, h.2, rfl⟩
  · rename_i h
    exact .inr ⟨h, rfl⟩

theorem Sound.writeProcessName (h : s.Sound) : (s.writeProcessName e).Sound := by
  rcases writeProcessName_cases s e with ⟨d, rfl, -, -, heq⟩ | ⟨-, heq⟩
  · rw [heq]
    refine ⟨fun _ _ => by simp, fun d hd => ?_⟩
    cases hd
    simp
  · rw [heq]
    exact h

/-- What a thread name writes: nothing when there is none, the entry of the
first thread of a process, and the last metadata for any other. -/
theorem writeThreadName_cases (h : s.Sound) :
    (namedThread (some e) = none ∧ s.writeThreadName e = .ok s) ∨
    (∃ tid name, e.thread = some (tid, name) ∧ name ≠ "" ∧ s.thread_names e.process_id = none ∧
      s.writeThreadName e = .ok ({ s with
        thread_names := Function.update s.thread_names e.process_id (some name)
        metadata := some (threadNameEntry e.process_id tid name) }.write_json
          (threadNameEntry e.process_id tid name))) ∨
    ∃ d, namedThread (some e) = some e.process_id ∧ s.thread_names e.process_id ≠ none ∧
      s.metadata = some d ∧ s.writeThreadName e = .ok (s.write_json d) := by
  unfold writeThreadName
  cases hthread : e.thread with
  | none => exact .inl ⟨by simp [namedThread, hthread], rfl⟩
  | some t =>
    obtain ⟨tid, name⟩ := t
    by_cases hname : name = ""
    · exact .inl ⟨by simp [namedThread, hthread, hname], if_pos hname⟩
    · by_cases hseen : s.thread_names e.process_id = none
      · exact .inr (.inl ⟨tid, name, rfl, hname, hseen, by simp [hname, hseen]⟩)
      · obtain ⟨d, hd⟩ := Option.ne_none_iff_exists'.mp (h.bound _ hseen)
        refine .inr (.inr ⟨d, ?_, hseen, hd, ?_⟩)
        · simp [namedThread, hthread, hname]
        · simp [hname, hseen, hd]

theorem Sound.writeThreadName (h : s.Sound) : ∃ s', s.writeThreadName e = .ok s' ∧ s'.Sound := by
  rcases writeThreadName_cases (e := e) h with ⟨-, heq⟩ | ⟨tid, name, -, -, -, heq⟩ | ⟨d, -, -, -, heq⟩
  · exact ⟨s, heq, h⟩
  · refine ⟨_, heq, fun _ _ => by simp, fun d hd => ?_⟩
    cases hd
    simp
  · exact ⟨_, heq, h.write_json⟩

theorem receive_eq (hraw : (s.convert t_0 m).raw_data = some e) (hdata : (s.convert t_0 m).data = some d) :
    s.receive t_0 m = (((s.convert t_0 m).writeProcessName e).writeThreadName e >>=
      fun s => .ok (s.write_json d)) := by
  unfold receive
  simp only [hraw, hdata]
  rfl

/-! ## Every turn writes one event line -/

/-- `raw_data` and `data` are bound. -/
def Current (t_0 : Int) (s : Locals) : Prop :=
  ∃ e, s.raw_data = some e ∧ s.data = some (translate t_0 e)

theorem Current.convert (h : s.Current t_0) : (s.convert t_0 m).Current t_0 := by
  cases m with
  | none => exact h
  | some e => exact ⟨e, rfl, rfl⟩

def eventLines (lines : List Entry) : List Entry := lines.filter fun d => !isMetadata d

theorem eventLines_snoc_metadata {lines : List Entry} (h : isMetadata d = true) :
    eventLines (lines ++ [d]) = eventLines lines := by
  simp [eventLines, h]

theorem writeProcessName_same (s : Locals) (e : Event) :
    (s.writeProcessName e).raw_data = s.raw_data ∧ (s.writeProcessName e).data = s.data ∧
      (s.writeProcessName e).thread_names = s.thread_names ∧
      eventLines (s.writeProcessName e).lines = eventLines s.lines := by
  rcases writeProcessName_cases s e with ⟨d, hd, -, -, heq⟩ | ⟨-, heq⟩
  · rw [heq]
    refine ⟨rfl, rfl, rfl, eventLines_snoc_metadata ?_⟩
    simp [hd]
  · rw [heq]
    exact ⟨rfl, rfl, rfl, rfl⟩

theorem writeThreadName_same {s' : Locals} (h : s.Sound) (hs : s.writeThreadName e = .ok s') :
    s'.raw_data = s.raw_data ∧ s'.data = s.data ∧ eventLines s'.lines = eventLines s.lines := by
  rcases writeThreadName_cases (e := e) h with ⟨-, heq⟩ | ⟨tid, name, -, -, -, heq⟩ | ⟨d, -, -, hd, heq⟩
  · cases heq.symm.trans hs
    exact ⟨rfl, rfl, rfl⟩
  · cases heq.symm.trans hs
    exact ⟨rfl, rfl, eventLines_snoc_metadata (by simp)⟩
  · cases heq.symm.trans hs
    exact ⟨rfl, rfl, eventLines_snoc_metadata (h.metadata d hd).1⟩

/-- With `raw_data` bound, a turn does not raise and writes an event line,
whether the message carries an event or not. -/
theorem receive_current (h : s.Sound) (hc : (s.convert t_0 m).Current t_0) :
    ∃ s', s.receive t_0 m = .ok s' ∧ s'.Sound ∧ s'.Current t_0 ∧
      (eventLines s'.lines).length = (eventLines s.lines).length + 1 := by
  obtain ⟨e, hraw, hdata⟩ := hc
  have hconv : (s.convert t_0 m).Sound := h.convert
  have hw := hconv.writeProcessName (e := e)
  obtain ⟨hraw', hdata', -, hlines⟩ := writeProcessName_same (s.convert t_0 m) e
  obtain ⟨s', hs', hsound⟩ := hw.writeThreadName (e := e)
  obtain ⟨hraw'', hdata'', hlines'⟩ := writeThreadName_same hw hs'
  refine ⟨s'.write_json (translate t_0 e), ?_, hsound.write_json, ⟨e, ?_, ?_⟩, ?_⟩
  · rw [receive_eq hraw hdata, hs']
    rfl
  · exact hraw''.trans (hraw'.trans hraw)
  · exact hdata''.trans (hdata'.trans hdata)
  · have hd : eventLines (s'.lines ++ [translate t_0 e]) = eventLines s'.lines ++ [translate t_0 e] := by
      simp [eventLines]
    rw [write_json_lines, hd, hlines', hlines, convert_lines, List.length_append]
    rfl

theorem run_current : ∀ (l : List TraceEvent) {s : Locals}, s.Sound → s.Current t_0 →
    ∃ s', l.foldlM (receive t_0) s = .ok s' ∧
      (eventLines s'.lines).length = (eventLines s.lines).length + l.length
  | [], s, _, _ => ⟨s, rfl, rfl⟩
  | m :: l, s, h, hc => by
    obtain ⟨s₁, hs₁, h₁, hc₁, hlen₁⟩ := receive_current h (hc.convert (m := m))
    obtain ⟨s', hs', hlen⟩ := run_current l h₁ hc₁
    refine ⟨s', ?_, ?_⟩
    · rw [List.foldlM_cons, hs₁]
      exact hs'
    · rw [hlen, hlen₁, List.length_cons]
      omega

theorem writeProcessName_process_names (s : Locals) (e : Event) (pid : UInt32) :
    (s.writeProcessName e).process_names pid = (s.process_names pid).or (sentProcessName pid (some e)) := by
  rcases writeProcessName_cases s e with ⟨d, -, hname, hnone, heq⟩ | ⟨hold, heq⟩
  · rw [heq, write_json_process_names]
    by_cases hpid : e.process_id = pid
    · subst hpid
      simp [hnone, sentProcessName, hname]
    · simp [Function.update_of_ne (Ne.symm hpid), sentProcessName, hpid]
  · rw [heq]
    by_cases hpid : e.process_id = pid
    · subst hpid
      cases hs : s.process_names e.process_id with
      | none =>
        have hname : e.process_name = "" := by
          by_contra hname
          exact hold ⟨hname, hs⟩
        simp [sentProcessName, hname]
      | some n => rfl
    · simp [sentProcessName, hpid]

/-- The names of the processes are those of the messages. -/
def NamesOf (messages : List TraceEvent) (s : Locals) : Prop :=
  ∀ pid, s.process_names pid = messages.findSome? (sentProcessName pid)

theorem writeProcessName_lines {messages : List TraceEvent} (h : NamesOf messages s) (e : Event) :
    (s.writeProcessName e).lines = s.lines ++ processLines messages e := by
  unfold processLines
  rw [← h e.process_id]
  rcases writeProcessName_cases s e with ⟨d, rfl, hname, hnone, heq⟩ | ⟨hold, heq⟩
  · rw [heq, if_pos ⟨hname, hnone⟩]
    rfl
  · rw [heq, if_neg hold, List.append_nil]

end Locals

/-! ## Messages that all carry an event -/

theorem findSome?_snoc (messages : List TraceEvent) (m : TraceEvent) (sent : TraceEvent → Option String) :
    (messages ++ [m]).findSome? sent = (messages.findSome? sent).or (sent m) := by
  rw [List.findSome?_append]
  cases hm : sent m <;> simp [List.findSome?, hm]

/-- No thread of a process has been named when the process has named none. -/
theorem threadLines_of_new {messages : List TraceEvent} {e : Event} {tid : UInt32} {name : String}
    (hthread : e.thread = some (tid, name)) (hname : name ≠ "")
    (hnew : e.process_id ∉ messages.filterMap namedThread) :
    threadLines messages e = [threadNameEntry e.process_id tid name] := by
  have hnone : messages.findSome? (sentThreadName e.process_id tid) = none := by
    rw [List.findSome?_eq_none_iff]
    intro m hm
    cases hs : sentThreadName e.process_id tid m with
    | none => rfl
    | some n => exact absurd (List.mem_filterMap.mpr ⟨m, hm, namedThread_of_sent hs⟩) hnew
  unfold threadLines
  rw [hthread]
  exact if_pos ⟨hname, hnone⟩

theorem threadLines_of_unnamed {messages : List TraceEvent} {e : Event}
    (h : namedThread (some e) = none) : threadLines messages e = [] := by
  unfold threadLines
  split
  · rfl
  · rename_i tid name hthread
    have hname : name = "" := by simpa [namedThread, hthread] using h
    exact if_neg fun hn => hn.1 hname

/-- The loop after messages that all carry an event. -/
structure Inv (t_0 : Int) (messages : List TraceEvent) (s : Locals) : Prop where
  sound : s.Sound
  processes : s.NamesOf messages
  threads : ∀ pid, s.thread_names pid = none ↔ pid ∉ messages.filterMap namedThread
  faithful : (messages.filterMap namedThread).Nodup → Faithful t_0 messages s.lines
  twice : ¬ (messages.filterMap namedThread).Nodup → ∃ d, isMetadata d = true ∧ 2 ≤ s.lines.count d

theorem faithful_nil (t_0 : Int) : Faithful t_0 [] [] := by
  constructor <;> simp

theorem inv_init (t_0 : Int) : Inv t_0 [] Locals.init where
  sound := Locals.sound_init
  processes := fun _ => rfl
  threads := by simp [Locals.init]
  faithful := fun _ => faithful_nil t_0
  twice := by simp

/-- The right lines were added, and no second thread of a process was named. -/
theorem inv_right {t_0 : Int} {messages : List TraceEvent} {s s' : Locals} {e : Event}
    (h : Inv t_0 messages s) (sound : s'.Sound) (processes : s'.NamesOf (messages ++ [some e]))
    (threads : ∀ pid, s'.thread_names pid = none ↔ pid ∉ (messages ++ [some e]).filterMap namedThread)
    (lines : s'.lines =
      s.lines ++ (processLines messages e ++ threadLines messages e ++ [translate t_0 e]))
    (nodup : ((messages ++ [some e]).filterMap namedThread).Nodup ↔ (messages.filterMap namedThread).Nodup) :
    Inv t_0 (messages ++ [some e]) s' := by
  refine ⟨sound, processes, threads, fun hn => ?_, fun hn => ?_⟩
  · rw [lines]
    exact faithful_snoc e (h.faithful (nodup.mp hn))
  · obtain ⟨d, hd, hcount⟩ := h.twice fun hn' => hn (nodup.mpr hn')
    refine ⟨d, hd, ?_⟩
    rw [lines, List.count_append]
    omega

theorem namedThreads_snoc {messages : List TraceEvent} {e : Event}
    (h : namedThread (some e) = some e.process_id) :
    (messages ++ [some e]).filterMap namedThread = messages.filterMap namedThread ++ [e.process_id] := by
  simp [h]

/-- The process of a named thread has got an entry, and no other one has. -/
theorem threads_snoc {t_0 : Int} {messages : List TraceEvent} {s : Locals} {e : Event}
    {names : UInt32 → Option String} (h : Inv t_0 messages s)
    (hnamed : namedThread (some e) = some e.process_id) (hset : names e.process_id ≠ none)
    (hother : ∀ pid, pid ≠ e.process_id → names pid = s.thread_names pid) (pid : UInt32) :
    names pid = none ↔ pid ∉ (messages ++ [some e]).filterMap namedThread := by
  rw [namedThreads_snoc hnamed]
  by_cases heq : pid = e.process_id
  · simpa [heq] using hset
  · simp [hother pid heq, h.threads pid, heq]

/-- A metadata line was written again, for the second named thread of a process. -/
theorem inv_again {t_0 : Int} {messages : List TraceEvent} {s s' : Locals} {e : Event} {d : Entry}
    (h : Inv t_0 messages s) (sound : s'.Sound) (processes : s'.NamesOf (messages ++ [some e]))
    (threads : ∀ pid, s'.thread_names pid = none ↔ pid ∉ (messages ++ [some e]).filterMap namedThread)
    (named : namedThread (some e) = some e.process_id) (seen : s.thread_names e.process_id ≠ none)
    (metadata : isMetadata d = true) (twice : 2 ≤ s'.lines.count d) : Inv t_0 (messages ++ [some e]) s' := by
  have hpid : e.process_id ∈ messages.filterMap namedThread := by
    by_contra hpid
    exact seen ((h.threads _).mpr hpid)
  have hdup : ¬ ((messages ++ [some e]).filterMap namedThread).Nodup := by
    rw [namedThreads_snoc named, ← List.concat_eq_append, List.nodup_concat]
    exact fun hn => hn.1 hpid
  exact ⟨sound, processes, threads, fun hn => absurd hn hdup, fun _ => ⟨d, metadata, twice⟩⟩

/-- A thread name is new to its process, or repeats a metadata line. -/
theorem inv_step {t_0 : Int} {messages : List TraceEvent} {s : Locals} (h : Inv t_0 messages s)
    (e : Event) : ∃ s', s.receive t_0 (some e) = .ok s' ∧ Inv t_0 (messages ++ [some e]) s' := by
  have hc : (s.convert t_0 (some e)).NamesOf messages := by
    intro pid
    rw [Locals.convert_process_names]
    exact h.processes pid
  have hconv : (s.convert t_0 (some e)).Sound := h.sound.convert
  have hw := hconv.writeProcessName (e := e)
  have hlines := Locals.writeProcessName_lines hc e
  have hprocesses : ((s.convert t_0 (some e)).writeProcessName e).NamesOf (messages ++ [some e]) := by
    intro pid
    rw [Locals.writeProcessName_process_names, hc pid, findSome?_snoc]
  obtain ⟨-, -, hthreads, -⟩ := Locals.writeProcessName_same (s.convert t_0 (some e)) e
  rw [Locals.convert_thread_names] at hthreads
  rw [Locals.convert_lines] at hlines
  rw [Locals.receive_eq rfl rfl]
  generalize (s.convert t_0 (some e)).writeProcessName e = w at hw hlines hprocesses hthreads ⊢
  rcases Locals.writeThreadName_cases (e := e) hw with ⟨hnamed, heq⟩ | ⟨tid, name, hthread, hname, hnew, heq⟩ |
    ⟨d, hnamed, hseen, hd, heq⟩
  · -- no thread name
    rw [heq]
    have hmap : (messages ++ [some e]).filterMap namedThread = messages.filterMap namedThread := by
      simp [hnamed]
    refine ⟨w.write_json (translate t_0 e), rfl, inv_right h hw.write_json hprocesses ?_ ?_ (by rw [hmap])⟩
    · intro pid
      rw [hmap, Locals.write_json_thread_names, hthreads]
      exact h.threads pid
    · rw [threadLines_of_unnamed hnamed, Locals.write_json_lines, hlines]
      simp
  · -- the first named thread of its process
    rw [heq]
    have hpid : e.process_id ∉ messages.filterMap namedThread := by
      rw [← h.threads, ← hthreads]
      exact hnew
    have hnamed : namedThread (some e) = some e.process_id := by simp [namedThread, hthread, hname]
    obtain ⟨s', hs', hsound⟩ := hw.writeThreadName (e := e)
    cases heq.symm.trans hs'
    refine ⟨_, rfl, inv_right h hsound.write_json hprocesses (threads_snoc h hnamed ?_ ?_) ?_ ?_⟩
    · simp
    · intro pid hne
      simp [hthreads, hne]
    · rw [threadLines_of_new hthread hname hpid]
      simp [hlines]
    · rw [namedThreads_snoc hnamed, ← List.concat_eq_append, List.nodup_concat]
      exact and_iff_right hpid
  · -- another named thread: the last metadata line again
    rw [heq]
    have hseen' : s.thread_names e.process_id ≠ none := by rwa [← hthreads]
    refine ⟨_, rfl, inv_again h hw.write_json.write_json hprocesses (threads_snoc h hnamed hseen ?_) hnamed
      hseen' (hw.metadata d hd).1 ?_⟩
    · intro pid _
      simp [hthreads]
    · have hmem := List.count_pos_iff.mpr (hw.metadata d hd).2
      simp only [Locals.write_json_lines, List.count_append, List.count_singleton_self]
      omega

theorem run_events (t_0 : Int) (messages : List TraceEvent) (h : ∀ m ∈ messages, m ≠ none) :
    ∃ s, messages.foldlM (Locals.receive t_0) Locals.init = .ok s ∧ Inv t_0 messages s := by
  induction messages using List.reverseRecOn with
  | nil => exact ⟨Locals.init, rfl, inv_init t_0⟩
  | append_singleton messages m ih =>
    obtain ⟨s, hs, hinv⟩ := ih fun m hm => h m (List.mem_append_left _ hm)
    obtain ⟨e, rfl⟩ := Option.ne_none_iff_exists'.mp (h m (by simp))
    obtain ⟨s', hs', hinv'⟩ := inv_step hinv e
    refine ⟨s', ?_, hinv'⟩
    rw [List.foldlM_append]
    exact bind_ok_iff.mpr ⟨s, hs, bind_ok_iff.mpr ⟨s', hs', rfl⟩⟩

/-! ## The lines of a run -/

/-- A first message without an event ends the thread. -/
theorem written_none_cons (t_0 : Int) (messages : List TraceEvent) : written t_0 (none :: messages) = [] := rfl

theorem faithful_of_no_event {t_0 : Int} {messages : List TraceEvent} (h : ∀ m ∈ messages, m = none) :
    Faithful t_0 messages (written t_0 messages) := by
  have hwritten : written t_0 messages = [] := by
    cases messages with
    | nil => rfl
    | cons m messages => rw [h m List.mem_cons_self, written_none_cons]
  have hfind : ∀ sent : TraceEvent → Option String, sent none = none → messages.findSome? sent = none :=
    fun sent hsent => List.findSome?_eq_none_iff.mpr fun m hm => by rw [h m hm, hsent]
  rw [hwritten]
  constructor
  · refine (List.filterMap_eq_nil_iff.mpr fun m hm => ?_).symm
    rw [h m hm]
    rfl
  · intro pid name
    simp [hfind (sentProcessName pid) rfl]
  · intro pid tid name
    simp [hfind (sentThreadName pid tid) rfl]
  · simp

/-- A line is written for every message from the first event on, also for one
that carries no event. -/
theorem all_events_of_faithful {t_0 : Int} {e : Event} {messages : List TraceEvent}
    (h : Faithful t_0 (some e :: messages) (written t_0 (some e :: messages))) :
    ∀ m ∈ messages, m ≠ none := by
  have hinit : (Locals.init.convert t_0 (some e)).Current t_0 := ⟨e, rfl, rfl⟩
  obtain ⟨s₁, hs₁, hsound, hcurrent, hlen₁⟩ := Locals.receive_current Locals.sound_init hinit
  obtain ⟨s', hs', hlen⟩ := Locals.run_current messages hsound hcurrent
  have hwritten : written t_0 (some e :: messages) = s'.lines := by
    unfold written
    rw [List.foldlM_cons, hs₁]
    have hrun : (Except.ok s₁ >>= fun s => messages.foldlM (Locals.receive t_0) s) = .ok s' := hs'
    rw [hrun]
  rw [hwritten] at h
  have hcount := congrArg List.length h.events
  have hlen' : (s'.lines.filter fun d => !isMetadata d).length = messages.length + 1 := by
    refine hlen.trans ?_
    rw [hlen₁, Nat.add_comm]
    rfl
  intro m hm hnone
  have hlt : ((some e :: messages).filterMap (Option.map (translate t_0))).length < (some e :: messages).length :=
    List.length_filterMap_lt_length_iff_exists.mpr ⟨m, List.mem_cons_of_mem _ hm, by rw [hnone]; rfl⟩
  rw [← hcount, hlen', List.length_cons] at hlt
  omega

theorem count_le_one {t_0 : Int} {messages : List TraceEvent} {lines : List Entry}
    (h : Faithful t_0 messages lines) {d : Entry} (hd : isMetadata d = true) : lines.count d ≤ 1 := by
  by_cases hmem : d ∈ lines
  · obtain ⟨pid, name, rfl⟩ | ⟨pid, tid, name, rfl⟩ := h.metadata d hmem hd
    · rw [h.processNames]
      split <;> omega
    · rw [h.threadNames]
      split <;> omega
  · rw [List.count_eq_zero.mpr hmem]
    omega

theorem faithful_iff_nodup {t_0 : Int} {messages : List TraceEvent} (h : ∀ m ∈ messages, m ≠ none) :
    Faithful t_0 messages (written t_0 messages) ↔ (messages.filterMap namedThread).Nodup := by
  obtain ⟨s, hs, hinv⟩ := run_events t_0 messages h
  have hwritten : written t_0 messages = s.lines := by
    unfold written
    rw [hs]
  rw [hwritten]
  constructor
  · intro hf
    by_contra hn
    obtain ⟨d, hd, htwice⟩ := hinv.twice hn
    have hone := count_le_one hf hd
    omega
  · exact hinv.faithful

/-- The lines are the right ones exactly when no message carries an event, or
each does and no process sends two thread names. -/
theorem faithful_iff (t_0 : Int) (messages : List TraceEvent) :
    Faithful t_0 messages (written t_0 messages) ↔ (∀ m ∈ messages, m = none) ∨
      (∀ m ∈ messages, m ≠ none) ∧ (messages.filterMap namedThread).Nodup := by
  constructor
  · intro h
    cases messages with
    | nil => exact .inl (by simp)
    | cons m messages =>
      cases m with
      | none =>
        left
        have hevents := h.events
        rw [written_none_cons, List.filter_nil] at hevents
        intro m hm
        simpa using List.filterMap_eq_nil_iff.mp hevents.symm m hm
      | some e =>
        have hall : ∀ m ∈ some e :: messages, m ≠ none :=
          List.forall_mem_cons.mpr ⟨by simp, all_events_of_faithful h⟩
        exact .inr ⟨hall, (faithful_iff_nodup hall).mp h⟩
  · intro h
    rcases h with h | ⟨hall, hn⟩
    · exact faithful_of_no_event h
    · exact (faithful_iff_nodup hall).mpr hn

/-- An instant event of a thread of process 1. -/
def sampleEvent (thread_id : UInt32) (thread_name : String) : TraceEvent :=
  some (.instant ⟨"blank", 1, "camera", thread_id, thread_name, 0⟩)

/-- The second thread of a process gets no entry, and the entry of the first
is written again; a message without an event writes the last event again. -/
theorem entry_repeated :
    (written 0 [sampleEvent 1 "main", sampleEvent 2 "loop"]).count (threadNameEntry 1 1 "main") = 2 ∧
      ¬ Faithful 0 [sampleEvent 1 "main", sampleEvent 2 "loop"]
        (written 0 [sampleEvent 1 "main", sampleEvent 2 "loop"]) ∧
      ¬ Faithful 0 [sampleEvent 1 "", none] (written 0 [sampleEvent 1 "", none]) := by
  refine ⟨by decide, ?_, ?_⟩
  · rw [faithful_iff_nodup (by simp [sampleEvent])]
    decide
  · intro h
    exact all_events_of_faithful h none (List.mem_singleton_self none) rfl

end Catkit2.L4.TraceWriter
