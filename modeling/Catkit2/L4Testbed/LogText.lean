import Catkit2.Core.PercentFormat

/-!
# The text of a log message (catkit2/testbed/logging.py)

A record of Python's `logging` is formatted by `emit`, submitted as a
`LogEntry`, dumped as JSON by the log forwarder, published by the log
distributor, and parsed by the observers that write it to a file or print it.

The C++ strings of an entry hold the UTF-8 of a `str`: they are lists of
`Char`. The messages arrive in order (see `MessageLoop`).

* `delivered_iff`: the observers recover the text of every record, and nothing
  raises, exactly when every record is plain.
-/
namespace Catkit2.L4.Logging

open PyText

variable {α : Type}

/-! ## Severities -/

inductive Severity where
  | critical | error | warning | info | debug
  deriving DecidableEq, Repr

namespace Severity

def value : Severity → Nat
  | critical => 50
  | error => 40
  | warning => 30
  | info => 20
  | debug => 10

/-- mirrors catkit_bindings/bindings.cpp:648-653 -/
def name : Severity → String
  | critical => "CRITICAL"
  | error => "ERROR"
  | warning => "WARNING"
  | info => "INFO"
  | debug => "DEBUG"

def all : List Severity := [critical, error, warning, info, debug]

end Severity

/-- mirrors catkit_core/Log.cpp:42-59 -/
def convertSeverityToString : Severity → List Char
  | .critical => "critical".toList
  | .error => "error".toList
  | .warning => "warning".toList
  | .info => "info".toList
  | .debug => "debug".toList

/-- `getattr(Severity, name)`. -/
def getSeverity (name : Text) : Except Error Severity :=
  match Severity.all.find? fun s => text s.name = name with
  | some s => .ok s
  | none => .error .attributeError

/-! ## From a record to an entry -/

/-- `args` is `none` when the record has no arguments: its `args` is `()`. A `msg` that is no
`str`, or `args` that are `None`, on which `emit` raises, are left out. -/
structure LogRecord (α : Type) where
  pathname : Text
  lineno : Int
  funcName : Text
  levelname : Text
  msg : Text
  args : Option α

structure LogEntry where
  filename : List Char
  line : Nat
  function : List Char
  severity : Severity
  message : List Char
  timestamp : UInt64
  time : List Char

/-- What `json.loads` returns for a log message. -/
structure LogMessage where
  filename : Text
  function : Text
  line : Nat
  message : Text
  service_id : Text
  severity : Text
  time : Text
  timestamp : Nat
  deriving DecidableEq

/-- What `std::localtime` returns; `offset` is in minutes, if there is a time
zone. -/
structure Tm where
  year : Nat
  month : Nat
  day : Nat
  hour : Nat
  minute : Nat
  second : Nat
  offset : Option Int

/-- What lies outside: `format` is `%` of a `str` with arguments, `color` and
`resetAll` are colorama's. -/
structure World (α : Type) where
  format : Text → α → Except Error Text
  loads : Text → Except Error LogMessage
  localtime : UInt64 → Tm
  color : Severity → Text
  resetAll : Text

/-- `logging`'s own rule. -/
def getMessage (w : World α) (r : LogRecord α) : Except Error Text :=
  match r.args with
  | none => .ok r.msg
  | some args => w.format r.msg args

/-- `record.msg % record.args`. -/
def percentArgs (w : World α) (r : LogRecord α) : Except Error Text :=
  match r.args with
  | none => formatNoArgs r.msg
  | some args => w.format r.msg args

/-- `%z`. -/
def putOffset : Option Int → List Char
  | none => []
  | some m => (if m < 0 then '-' else '+') ::
    zeroPadded 2 (m.natAbs / 60) ++ zeroPadded 2 (m.natAbs % 60)

/-- mirrors catkit_core/Timing.cpp:16-30 -/
def convertTimestampToString (w : World α) (timestamp : UInt64) : List Char :=
  let tm := w.localtime timestamp
  decimal tm.year ++ '-' :: zeroPadded 2 tm.month ++ '-' :: zeroPadded 2 tm.day ++
    ' ' :: zeroPadded 2 tm.hour ++ ':' :: zeroPadded 2 tm.minute ++ ':' :: zeroPadded 2 tm.second ++
    '.' :: zeroPadded 9 (timestamp.toNat % 1000000000) ++ ' ' :: "UTC".toList ++ putOffset tm.offset

/-- What pybind11 raises when an argument does not convert. -/
def incompatible : Error := .typeError "incompatible function arguments"

def castUnsigned (i : Int) : Except Error Nat :=
  if decide (0 ≤ i) && decide (i ≤ 0xffffffff) then .ok i.toNat else .error incompatible

/-- mirrors catkit_core/Log.cpp:9-13,33-40 -/
def submitLogEntry (w : World α) (timestamp : UInt64) (filename : Text) (line : Int)
    (function : Text) (severity : Severity) (message : Text) : Except Error LogEntry := do
  let filename ← toChars incompatible filename
  let line ← castUnsigned line
  let function ← toChars incompatible function
  let message ← toChars incompatible message
  return ⟨filename, line, function, severity, message, timestamp, convertTimestampToString w timestamp⟩

/-- mirrors catkit2/testbed/logging.py:13-27 -/
def emit (w : World α) (r : LogRecord α) (timestamp : UInt64) : Except Error LogEntry := do
  let message ← percentArgs w r
  let severity ← getSeverity r.levelname
  submitLogEntry w timestamp r.pathname r.lineno r.funcName severity message

/-! ## From an entry to a message -/

def member (key : String) (value : List Char) : List Char := dumpString key.toList ++ ':' :: value

/-- `message.dump()`: the keys of an object are sorted. -/
def dump (serviceId : List Char) (e : LogEntry) : List Char :=
  Char.ofNat 0x7b :: List.intercalate [','] [
    member "filename" (dumpString e.filename),
    member "function" (dumpString e.function),
    member "line" (decimal e.line),
    member "message" (dumpString e.message),
    member "service_id" (dumpString serviceId),
    member "severity" (dumpString (convertSeverityToString e.severity)),
    member "time" (dumpString e.time),
    member "timestamp" (decimal e.timestamp.toNat)] ++ [Char.ofNat 0x7d]

/-- mirrors catkit_core/LogForwarder.cpp:31-50 -/
def addLogEntry (serviceId : List Char) (e : LogEntry) : Bytes := encodeUtf8 (dump serviceId e)

/-- The message that an entry stands for. -/
def messageOf (serviceId : List Char) (e : LogEntry) : LogMessage where
  filename := ofChars e.filename
  function := ofChars e.function
  line := e.line
  message := ofChars e.message
  service_id := ofChars serviceId
  severity := ofChars (convertSeverityToString e.severity)
  time := ofChars e.time
  timestamp := e.timestamp.toNat

/-- The callback of the log distributor, and what it prints.
mirrors catkit2/testbed/testbed.py:439-443 -/
def callback (w : World α) (log_message : Bytes) : Except Error Text := do
  let log_message ← decodeUtf8 log_message
  let log_message ← w.loads log_message
  return text "[" ++ log_message.service_id ++ text "] " ++ log_message.message

/-- `str.upper()`; the severities that arrive are ASCII. -/
def upper (t : Text) : Text :=
  t.map fun c => if h : 97 ≤ c.val ∧ c.val ≤ 122 then ⟨c.val - 32, by omega⟩ else c

/-- A `LogWriter` or a `LogTerminal`, with its level. -/
inductive Observer where
  | writer (level : Severity)
  | terminal (level : Severity)
  deriving DecidableEq, Repr

/-- The format of a `LogWriter` that is given none. -/
def logFormat (m : LogMessage) : Text :=
  m.time ++ text " - " ++ m.service_id ++ text " - " ++ m.severity ++ text " - " ++ m.message

def header (m : LogMessage) : Text :=
  m.time ++ text " - " ++ (m.severity ++ List.replicate (8 - m.severity.length) (ofChar ' ')) ++
    text " - " ++ m.service_id ++ text " - " ++ m.filename ++ text ":" ++ ofChars (decimal m.line)

/-- The lines that are printed, or written if a file is open.
mirrors catkit2/testbed/logging.py:125-138, 153-164 -/
def handleMessage (w : World α) (o : Observer) (m : LogMessage) : Except Error (List Text) := do
  let severity ← getSeverity (upper m.severity)
  match o with
  | .writer level =>
    if severity.value < level.value then return []
    return [logFormat m]
  | .terminal level =>
    if m.service_id ≠ text "experiment" && decide (severity.value < level.value) then return []
    return [header m, w.color severity ++ m.message ++ w.resetAll]

/-- What the thread of an observer has done. -/
structure Observed where
  messages : List LogMessage
  lines : List Text
  raised : Option Error

/-- One turn of the loop. mirrors catkit2/testbed/logging.py:71-75 -/
def receive (w : World α) (o : Observer) (log_message : Bytes) :
    Except Error (LogMessage × List Text) := do
  let log_message ← decodeAscii log_message
  let log_message ← w.loads log_message
  let lines ← handleMessage w o log_message
  return (log_message, lines)

/-- The loop over the messages that arrive: an exception ends it, and its
thread. mirrors catkit2/testbed/logging.py:54-75 -/
def loop (w : World α) (o : Observer) : List Bytes → Observed
  | [] => ⟨[], [], none⟩
  | b :: l =>
    match receive w o b with
    | .ok (m, lines) =>
      let rest := loop w o l
      ⟨m :: rest.messages, lines ++ rest.lines, rest.raised⟩
    | .error e => ⟨[], [], some e⟩

/-! ## ASCII -/

theorem ascii_severity (s : Severity) : AsciiChars (convertSeverityToString s) := by
  cases s <;> decide

theorem ascii_putOffset (m : Option Int) : AsciiChars (putOffset m) := by
  cases m with
  | none => simp [putOffset]
  | some m =>
    have hsign : (if m < 0 then '-' else '+').toNat < 128 := by split <;> decide
    simp [putOffset, ascii_zeroPadded, hsign]

theorem ascii_time (w : World α) (timestamp : UInt64) :
    AsciiChars (convertTimestampToString w timestamp) := by
  simp [convertTimestampToString, ascii_decimal, ascii_zeroPadded, ascii_putOffset]

theorem ascii_member {key : String} (hk : AsciiChars key.toList) (value : List Char) :
    AsciiChars (member key value) ↔ AsciiChars value := by
  simp [member, ascii_dumpString, hk]

theorem ascii_keys : ∀ key ∈ ["filename", "function", "line", "message", "service_id", "severity",
    "time", "timestamp"], AsciiChars key.toList := by decide

/-- The dump of an entry is ASCII when its texts and the service id are. -/
theorem ascii_dump {serviceId : List Char} {e : LogEntry} (ht : AsciiChars e.time) :
    AsciiChars (dump serviceId e) ↔ AsciiChars e.filename ∧ AsciiChars e.function ∧
      AsciiChars e.message ∧ AsciiChars serviceId := by
  have hcomma : AsciiChars [','] := by decide
  have hopen : (Char.ofNat 0x7b).toNat < 128 := by decide
  have hclose : (Char.ofNat 0x7d).toNat < 128 := by decide
  obtain ⟨h1, h2, h3, h4, h5, h6, h7, h8, -⟩ := by
    simpa only [List.forall_mem_cons] using ascii_keys
  unfold dump
  rw [asciiChars_append, asciiChars_cons, asciiChars_intercalate hcomma]
  simp only [List.forall_mem_cons, ascii_member h1, ascii_member h2, ascii_member h3, ascii_member h4,
    ascii_member h5, ascii_member h6, ascii_member h7, ascii_member h8, ascii_dumpString,
    ascii_decimal, ascii_severity, ht, hopen, hclose, asciiChars_cons, asciiChars_nil]
  simp


/-! ## One record -/

theorem getSeverity_ok_iff {name : Text} :
    (∃ s, getSeverity name = .ok s) ↔ ∃ s : Severity, name = text s.name := by
  unfold getSeverity
  constructor
  · intro ⟨s, h⟩
    split at h
    · rename_i s' hs
      have hname := List.find?_some hs
      exact ⟨s', (of_decide_eq_true hname).symm⟩
    · cases h
  · intro ⟨s, h⟩
    subst h
    cases s <;> exact ⟨_, rfl⟩

theorem castUnsigned_ok_iff {i : Int} :
    (∃ n, castUnsigned i = .ok n) ↔ 0 ≤ i ∧ i ≤ 0xffffffff := by
  unfold castUnsigned
  split
  · simp_all
  · simp_all

theorem submitLogEntry_ok_iff {w : World α} {timestamp : UInt64} {filename function message : Text}
    {line : Int} {severity : Severity} {e : LogEntry} :
    submitLogEntry w timestamp filename line function severity message = .ok e ↔
      ∃ f, toChars incompatible filename = .ok f ∧ ∃ n, castUnsigned line = .ok n ∧
      ∃ g, toChars incompatible function = .ok g ∧ ∃ m, toChars incompatible message = .ok m ∧
        e = ⟨f, n, g, severity, m, timestamp, convertTimestampToString w timestamp⟩ := by
  unfold submitLogEntry
  simp only [bind_ok_iff]
  simp [pure, Except.pure, eq_comm]

theorem emit_ok_iff {w : World α} {r : LogRecord α} {timestamp : UInt64} {e : LogEntry} :
    emit w r timestamp = .ok e ↔ ∃ m, percentArgs w r = .ok m ∧ ∃ s, getSeverity r.levelname = .ok s ∧
      submitLogEntry w timestamp r.pathname r.lineno r.funcName s m = .ok e := by
  unfold emit
  simp only [bind_ok_iff]

/-- `emit` formats as `logging` does, except that it formats a message
without arguments as well. -/
theorem percentArgs_eq_getMessage_iff {w : World α} {r : LogRecord α} {t : Text}
    (ht : getMessage w r = .ok t) : percentArgs w r = .ok t ↔ (r.args = none → percent ∉ r.msg) := by
  unfold getMessage at ht
  unfold percentArgs
  cases hargs : r.args with
  | none =>
    rw [hargs] at ht
    cases ht
    simp [formatNoArgs_eq_self_iff]
  | some args =>
    rw [hargs] at ht
    simp [ht]

/-- The records whose text arrives: one of the five levels, ASCII throughout,
and no `%` in a message without arguments. -/
structure Plain (w : World α) (serviceId : List Char) (r : LogRecord α) : Prop where
  level : ∃ s : Severity, r.levelname = text s.name
  line : 0 ≤ r.lineno ∧ r.lineno ≤ 0xffffffff
  pathname : Ascii r.pathname
  funcName : Ascii r.funcName
  service : AsciiChars serviceId
  message : ∀ t, getMessage w r = .ok t → Ascii t
  noPercent : r.args = none → percent ∉ r.msg

theorem emit_of_plain {w : World α} {serviceId : List Char} {r : LogRecord α} {t : Text}
    (h : Plain w serviceId r) (ht : getMessage w r = .ok t) (timestamp : UInt64) :
    ∃ e, emit w r timestamp = .ok e ∧ ofChars e.message = t ∧ AsciiChars (dump serviceId e) := by
  obtain ⟨f, hf⟩ := toChars_of_ascii (e := incompatible) h.pathname
  obtain ⟨g, hg⟩ := toChars_of_ascii (e := incompatible) h.funcName
  obtain ⟨m, hm⟩ := toChars_of_ascii (e := incompatible) (h.message t ht)
  obtain ⟨n, hn⟩ := castUnsigned_ok_iff.mpr h.line
  obtain ⟨s, hs⟩ := getSeverity_ok_iff.mpr h.level
  have hp := (percentArgs_eq_getMessage_iff ht).mpr h.noPercent
  refine ⟨_, emit_ok_iff.mpr ⟨t, hp, s, hs, submitLogEntry_ok_iff.mpr ⟨f, hf, n, hn, g, hg, m, hm, rfl⟩⟩,
    ofChars_of_toChars hm, (ascii_dump (ascii_time w timestamp)).mpr ⟨?_, ?_, ?_, h.service⟩⟩
  · exact ascii_ofChars.mp (ofChars_of_toChars hf ▸ h.pathname)
  · exact ascii_ofChars.mp (ofChars_of_toChars hg ▸ h.funcName)
  · exact ascii_ofChars.mp (ofChars_of_toChars hm ▸ h.message t ht)

theorem plain_of_emit {w : World α} {serviceId : List Char} {r : LogRecord α} {t : Text}
    {timestamp : UInt64} {e : LogEntry} (he : emit w r timestamp = .ok e)
    (ha : AsciiChars (dump serviceId e)) (ht : getMessage w r = .ok t) (hm : ofChars e.message = t) :
    Plain w serviceId r := by
  obtain ⟨m, hp, s, hs, hsub⟩ := emit_ok_iff.mp he
  obtain ⟨f, hf, n, hn, g, hg, msg, hmsg, rfl⟩ := submitLogEntry_ok_iff.mp hsub
  obtain ⟨h1, h2, h3, h4⟩ := (ascii_dump (ascii_time w timestamp)).mp ha
  have hmt : m = t := (ofChars_of_toChars hmsg).symm.trans hm
  subst hmt
  refine ⟨getSeverity_ok_iff.mp ⟨s, hs⟩, castUnsigned_ok_iff.mp ⟨n, hn⟩, ?_, ?_, h4, ?_,
    (percentArgs_eq_getMessage_iff ht).mp hp⟩
  · exact ofChars_of_toChars hf ▸ ascii_ofChars.mpr h1
  · exact ofChars_of_toChars hg ▸ ascii_ofChars.mpr h2
  · intro t' ht'
    cases ht'.symm.trans ht
    exact hm ▸ ascii_ofChars.mpr h3

/-! ## One message -/

theorem upper_severity (s : Severity) :
    getSeverity (upper (ofChars (convertSeverityToString s))) = .ok s := by
  cases s <;> rfl

/-- An observer handles every message that the log forwarder makes. -/
theorem handleMessage_messageOf (w : World α) (o : Observer) (serviceId : List Char) (e : LogEntry) :
    ∃ lines, handleMessage w o (messageOf serviceId e) = .ok lines := by
  have hs : getSeverity (upper (messageOf serviceId e).severity) = .ok e.severity :=
    upper_severity e.severity
  unfold handleMessage
  rw [hs]
  cases o with
  | writer level =>
    by_cases h : e.severity.value < level.value
    · exact ⟨[], if_pos h⟩
    · exact ⟨_, if_neg h⟩
  | terminal level =>
    by_cases h : ((messageOf serviceId e).service_id ≠ text "experiment" &&
      decide (e.severity.value < level.value)) = true
    · exact ⟨[], if_pos h⟩
    · exact ⟨_, if_neg h⟩

/-- The JSON of the entry is read back: `json.loads` and `dump` are inverse on
it. -/
def ReadBack (w : World α) (serviceId : List Char) (e : LogEntry) : Prop :=
  w.loads (ofChars (dump serviceId e)) = .ok (messageOf serviceId e)

theorem callback_ok {w : World α} {serviceId : List Char} {e : LogEntry}
    (h : ReadBack w serviceId e) : ∃ line, callback w (addLogEntry serviceId e) = .ok line := by
  unfold callback addLogEntry
  rw [decodeUtf8_encodeUtf8]
  exact ⟨_, bind_ok_iff.mpr ⟨_, rfl, bind_ok_iff.mpr ⟨_, h, rfl⟩⟩⟩

theorem receive_ok_iff {w : World α} {serviceId : List Char} {e : LogEntry} (o : Observer)
    (h : ReadBack w serviceId e) (m : LogMessage) :
    (∃ lines, receive w o (addLogEntry serviceId e) = .ok (m, lines)) ↔
      AsciiChars (dump serviceId e) ∧ m = messageOf serviceId e := by
  unfold receive addLogEntry
  simp only [bind_ok_iff, decodeAscii_encodeUtf8]
  constructor
  · intro ⟨lines, t, ⟨ha, ht⟩, m', hm', lines', _, hr⟩
    subst ht
    cases hr
    cases hm'.symm.trans h
    exact ⟨ha, rfl⟩
  · intro ⟨ha, hm⟩
    subst hm
    obtain ⟨lines, hlines⟩ := handleMessage_messageOf w o serviceId e
    exact ⟨lines, _, ⟨ha, rfl⟩, _, h, lines, hlines, rfl⟩

/-! ## The run -/

/-- The text of a record arrives, and nothing raises on the way. -/
def Sent (w : World α) (serviceId : List Char) (o : Observer) (p : LogRecord α × UInt64) (t : Text) : Prop :=
  ∃ e, emit w p.1 p.2 = .ok e ∧ (∃ line, callback w (addLogEntry serviceId e) = .ok line) ∧
    ∃ m lines, receive w o (addLogEntry serviceId e) = .ok (m, lines) ∧ m.message = t

/-- No record raises in `emit` and no message in the log distributor or the
observer, which goes on to the end and recovers `texts`. -/
def Delivered (w : World α) (serviceId : List Char) (o : Observer)
    (records : List (LogRecord α × UInt64)) (texts : List Text) : Prop :=
  ∃ entries, records.mapM (fun p => emit w p.1 p.2) = .ok entries ∧
    (∀ e ∈ entries, ∃ line, callback w (addLogEntry serviceId e) = .ok line) ∧
    (loop w o (entries.map (addLogEntry serviceId))).raised = none ∧
    (loop w o (entries.map (addLogEntry serviceId))).messages.map LogMessage.message = texts

theorem loop_cons_raised {w : World α} {o : Observer} {b : Bytes} {l : List Bytes} :
    (loop w o (b :: l)).raised = none ↔
      (∃ m lines, receive w o b = .ok (m, lines)) ∧ (loop w o l).raised = none := by
  cases h : receive w o b with
  | ok r =>
    obtain ⟨m, lines⟩ := r
    simp [loop, h]
  | error e => simp [loop, h]

theorem loop_cons_messages {w : World α} {o : Observer} {b : Bytes} {l : List Bytes} {m : LogMessage}
    {lines : List Text} (h : receive w o b = .ok (m, lines)) :
    (loop w o (b :: l)).messages = m :: (loop w o l).messages := by
  simp [loop, h]

theorem delivered_nil {w : World α} {serviceId : List Char} {o : Observer} :
    Delivered w serviceId o [] [] := ⟨[], rfl, by simp, rfl, rfl⟩

theorem delivered_cons {w : World α} {serviceId : List Char} {o : Observer} {p : LogRecord α × UInt64}
    {records : List (LogRecord α × UInt64)} {t : Text} {texts : List Text} :
    Delivered w serviceId o (p :: records) (t :: texts) ↔
      Sent w serviceId o p t ∧ Delivered w serviceId o records texts := by
  constructor
  · intro ⟨entries, hemit, hcall, hraised, htexts⟩
    cases mapM_ok_iff.mp hemit with
    | @cons _ e _ entries he hes =>
      rw [List.map_cons] at hraised htexts
      obtain ⟨⟨m, lines, hr⟩, hrest⟩ := loop_cons_raised.mp hraised
      rw [loop_cons_messages hr, List.map_cons] at htexts
      cases htexts
      have hcall := List.forall_mem_cons.mp hcall
      exact ⟨⟨e, he, hcall.1, m, lines, hr, rfl⟩, entries, mapM_ok_iff.mpr hes, hcall.2, hrest, rfl⟩
  · intro ⟨⟨e, he, hcall, m, lines, hr, ht⟩, entries, hemit, hcalls, hraised, htexts⟩
    subst ht
    refine ⟨e :: entries, mapM_ok_iff.mpr (.cons he (mapM_ok_iff.mp hemit)),
      List.forall_mem_cons.mpr ⟨hcall, hcalls⟩, loop_cons_raised.mpr ⟨⟨m, lines, hr⟩, hraised⟩, ?_⟩
    rw [List.map_cons, loop_cons_messages hr, List.map_cons, htexts]

theorem sent_iff {w : World α} {serviceId : List Char} {o : Observer} {p : LogRecord α × UInt64}
    {t : Text} (ht : getMessage w p.1 = .ok t)
    (hread : ∀ e, emit w p.1 p.2 = .ok e → ReadBack w serviceId e) :
    Sent w serviceId o p t ↔ Plain w serviceId p.1 := by
  constructor
  · intro ⟨e, he, _, m, lines, hr, hm⟩
    obtain ⟨ha, rfl⟩ := (receive_ok_iff o (hread e he) m).mp ⟨lines, hr⟩
    exact plain_of_emit he ha ht hm
  · intro h
    obtain ⟨e, he, hm, ha⟩ := emit_of_plain h ht p.2
    obtain ⟨lines, hr⟩ := (receive_ok_iff o (hread e he) _).mpr ⟨ha, rfl⟩
    exact ⟨e, he, callback_ok (hread e he), _, lines, hr, hm⟩

/-- The observers recover the text of every record, and nothing raises,
exactly when every record is plain. -/
theorem delivered_iff (w : World α) (serviceId : List Char) (o : Observer)
    (records : List (LogRecord α × UInt64)) (texts : List Text)
    (htexts : records.mapM (fun p => getMessage w p.1) = .ok texts)
    (hread : ∀ p ∈ records, ∀ e, emit w p.1 p.2 = .ok e → ReadBack w serviceId e) :
    Delivered w serviceId o records texts ↔ ∀ p ∈ records, Plain w serviceId p.1 := by
  have hall := mapM_ok_iff.mp htexts
  clear htexts
  induction hall with
  | nil => simp [delivered_nil]
  | cons ht _ ih =>
    obtain ⟨hp, hps⟩ := List.forall_mem_cons.mp hread
    simp only [List.forall_mem_cons]
    exact delivered_cons.trans ((sent_iff ht hp).and (ih hps))

/-- A world for the runs below: it reads the JSON of the given entries, and
formats one message. -/
def sampleWorld (serviceId : List Char) (entries : List LogEntry) : World Nat where
  format := fun msg n => if msg = text "exposure %d" then .ok (text "exposure " ++ ofChars (decimal n))
    else .error notEnough
  loads := fun t => match entries.find? fun e => ofChars (dump serviceId e) = t with
    | some e => .ok (messageOf serviceId e)
    | none => .error .jsonDecodeError
  localtime := fun _ => ⟨1970, 1, 1, 0, 0, 0, some 0⟩
  color := fun _ => []
  resetAll := []

def sampleRecord (msg : Text) (args : Option Nat) : LogRecord Nat where
  pathname := text "camera.py"
  lineno := 12
  funcName := text "expose"
  levelname := text "INFO"
  msg := msg
  args := args

def sampleEntry (message : List Char) : LogEntry where
  filename := "camera.py".toList
  line := 12
  function := "expose".toList
  severity := .info
  message := message
  timestamp := 0
  time := "1970-01-01 00:00:00.000000000 UTC+0000".toList

def sampleService : List Char := "camera".toList

theorem emit_sample_arguments :
    emit (sampleWorld sampleService [sampleEntry "exposure 5".toList])
      (sampleRecord (text "exposure %d") (some 5)) 0 = .ok (sampleEntry "exposure 5".toList) := rfl

theorem readBack_sample (message : List Char) :
    ReadBack (sampleWorld sampleService [sampleEntry message]) sampleService (sampleEntry message) := by
  simp [ReadBack, sampleWorld]

theorem delivered_iff_arguments :
    Delivered (sampleWorld sampleService [sampleEntry "exposure 5".toList]) sampleService (.writer .debug)
      [(sampleRecord (text "exposure %d") (some 5), 0)] [text "exposure 5"] := by
  refine (delivered_iff _ _ _ _ _ rfl ?_).mpr ?_
  · intro p hp e he
    obtain rfl := List.mem_singleton.mp hp
    cases emit_sample_arguments.symm.trans he
    exact readBack_sample _
  · intro p hp
    obtain rfl := List.mem_singleton.mp hp
    have hmessage : ∀ t, getMessage (sampleWorld sampleService [sampleEntry "exposure 5".toList])
        (sampleRecord (text "exposure %d") (some 5)) = .ok t → Ascii t := by
      intro t ht
      have hm : getMessage (sampleWorld sampleService [sampleEntry "exposure 5".toList])
        (sampleRecord (text "exposure %d") (some 5)) = .ok (text "exposure 5") := rfl
      cases hm.symm.trans ht
      exact ascii_ofChars.mpr (by decide)
    exact ⟨⟨.info, rfl⟩, by decide, ascii_ofChars.mpr (by decide), ascii_ofChars.mpr (by decide),
      by decide, hmessage, fun h => (by cases h)⟩

/-- A percent sign without arguments raises in `emit`; a character that is not
ASCII ends the loop of the observer, although the log distributor reads it. -/
theorem text_lost :
    (getMessage (sampleWorld sampleService []) (sampleRecord (text "100%") none) = .ok (text "100%") ∧
      ∀ o, ¬ Delivered (sampleWorld sampleService []) sampleService o
        [(sampleRecord (text "100%") none, 0)] [text "100%"]) ∧
    (ReadBack (sampleWorld sampleService [sampleEntry "5 µm".toList]) sampleService
        (sampleEntry "5 µm".toList) ∧
      ∀ o, ¬ Delivered (sampleWorld sampleService [sampleEntry "5 µm".toList]) sampleService o
        [(sampleRecord (text "5 µm") none, 0)] [text "5 µm"]) := by
  refine ⟨⟨rfl, ?_⟩, readBack_sample _, ?_⟩
  · intro o h
    obtain ⟨⟨e, he, -⟩, -⟩ := delivered_cons.mp h
    have hemit : emit (sampleWorld sampleService []) (sampleRecord (text "100%") none) 0 =
      .error (.valueError "incomplete format") := rfl
    cases hemit.symm.trans he
  · intro o h
    obtain ⟨⟨e, he, -, m, lines, hr, -⟩, -⟩ := delivered_cons.mp h
    have hemit : emit (sampleWorld sampleService [sampleEntry "5 µm".toList])
      (sampleRecord (text "5 µm") none) 0 = .ok (sampleEntry "5 µm".toList) := rfl
    cases hemit.symm.trans he
    have ha := ((receive_ok_iff o (readBack_sample _) m).mp ⟨lines, hr⟩).1
    exact absurd ((ascii_dump (by decide)).mp ha).2.2.1 (by decide)

end Catkit2.L4.Logging
