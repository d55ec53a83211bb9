import Catkit2.Core.OrdMap
import Catkit2.Core.Script
import Catkit2.L1Encoding.Types
import Catkit2.L4Testbed.Start

/-!
# A client's view of a service (catkit_core/ServiceProxy.cpp)

A `ServiceProxy` remembers which properties, commands and data streams the
service has, from the `get_info` reply of the run it last connected to, and
the client it makes requests through. Every operation reads the state stream
several times, and the service and the testbed write to it in between.

What the proxy meets is a script (`Moment`): at each read of the state stream
the newest frame, and what the testbed, the service and the data streams then
answer. `Connect` is one moment: its requests are answered by the run whose
frame it read, or not at all. A request through a null client crashes.

* `deref_iff`: no operation does so but `Stop`, and `Stop` exactly when the
  service stops running between its two looks at the state.
* `Kept.exec`: what time, a `Connect` and an opened stream keep, every call keeps.
-/
namespace Catkit2.L4

open Catkit2.L1

/-! ## What a service lists -/

/-- What a run of a service publishes; `properties` with the name of their
stream, `dataStreams` with their ids, both `std::map`s. -/
structure Interface where
  properties : List (StdString × Option StdString)
  commands : List StdString
  dataStreams : List (StdString × StdString)
  heartbeat : StdString
  sortedProperties : OrdMap.Sorted properties
  sortedDataStreams : OrdMap.Sorted dataStreams

/-- mirrors proto/service.proto (GetInfoReply) -/
structure GetInfoReply where
  property_names : List StdString
  command_names : List StdString
  datastream_ids : List (StdString × StdString)
  property_datastream_links : List (StdString × StdString)
  heartbeat_stream_id : StdString

namespace Interface

/-- The properties that have a stream. -/
def links (i : Interface) : List (StdString × StdString) :=
  i.properties.filterMap fun e => e.2.map fun stream => (e.1, stream)

/-- mirrors catkit_core/Service.cpp:428-457 -/
def handleGetInfo (i : Interface) : GetInfoReply where
  property_names := OrdMap.keys i.properties
  command_names := i.commands
  datastream_ids := i.dataStreams
  property_datastream_links := i.links
  heartbeat_stream_id := i.heartbeat

end Interface

/-- A reply as it is received: a protobuf map has no order. -/
structure SameReply (sent received : GetInfoReply) : Prop where
  property_names : received.property_names = sent.property_names
  command_names : received.command_names = sent.command_names
  datastream_ids : sent.datastream_ids.Perm received.datastream_ids
  links : sent.property_datastream_links.Perm received.property_datastream_links
  heartbeat : received.heartbeat_stream_id = sent.heartbeat_stream_id

/-! ## The proxy -/

/-- A frame of the state stream, and the run of the service it is about. -/
structure StateFrame where
  state : ServiceState
  timeStamp : UInt64
  run : Nat
  deriving DecidableEq

/-- What there is outside at one moment. `polls` is how often the loop in `Start`
goes around until its time is over, `latest` what the fast path of
`GetProperty` finds in the stream. -/
structure Moment where
  frame : StateFrame
  polls : Nat
  startService : Except String Unit
  errorCheck : Except String Unit
  serviceInfo : Except String (StdString × Nat)
  getInfo : Except String GetInfoReply
  openStream : Except String Unit
  latest : Option Value
  request : Except String Value

structure Tables where
  propertyNames : List StdString
  commandNames : List StdString
  dataStreamIds : List (StdString × StdString)
  propertyDataStreamLinks : List (StdString × StdString)
  deriving DecidableEq

/-- A `Connect` that returned and saw a running service. -/
structure Connected where
  frame : StateFrame
  before : Tables
  after : Tables

/-- `client` is the host and port of the client. Of an open data stream its id
is kept.
mirrors catkit_core/ServiceProxy.h:52-71 -/
structure ServiceProxy extends Tables where
  client : Option (StdString × Nat)
  dataStreams : List (StdString × StdString)
  heartbeat : Option StdString
  timeLastConnect : UInt64
  /-- ghost: what every `Connect` left -/
  connects : List Connected

/-- A call of the proxy. -/
abbrev Proxied (α : Type) : Type := Script Moment ServiceProxy String α

namespace ServiceProxy

open Script

/-- mirrors catkit_core/ServiceProxy.cpp:15-18 -/
def initial : ServiceProxy where
  propertyNames := []
  commandNames := []
  dataStreamIds := []
  propertyDataStreamLinks := []
  client := none
  dataStreams := []
  heartbeat := none
  timeLastConnect := 0
  connects := []

/-- mirrors catkit_core/ServiceProxy.cpp:324-333 -/
def disconnect (s : ServiceProxy) : ServiceProxy :=
  { s with
    client := none
    propertyNames := []
    commandNames := []
    dataStreamIds := []
    dataStreams := []
    heartbeat := none }

/-- mirrors catkit_core/ServiceProxy.cpp:303-316 -/
def fill (s : ServiceProxy) (reply : GetInfoReply) : ServiceProxy :=
  { s with
    propertyNames := s.propertyNames ++ reply.property_names
    commandNames := s.commandNames ++ reply.command_names
    dataStreamIds := OrdMap.assignAll s.dataStreamIds reply.datastream_ids
    propertyDataStreamLinks := OrdMap.assignAll s.propertyDataStreamLinks reply.property_datastream_links }

/-- ghost: `Connect` returns, `before` is what it found. -/
def returned (s : ServiceProxy) (frame : StateFrame) (before : Tables) : ServiceProxy :=
  { s with connects := s.connects ++ [⟨frame, before, s.toTables⟩] }

/-- mirrors catkit_core/ServiceProxy.cpp:273-322 -/
def connectAt (m : Moment) (s : ServiceProxy) : Except String Unit × ServiceProxy :=
  if m.frame.state ≠ .RUNNING then (.ok (), s.disconnect)
  else if s.timeLastConnect = m.frame.timeStamp then (.ok (), s.returned m.frame s.toTables)
  else
    match m.serviceInfo with
    | .error e => (.error e, s.disconnect)
    | .ok address =>
      match m.getInfo with
      | .error e => (.error e, { s.disconnect with client := some address })
      | .ok reply =>
        let filled := { s.disconnect with client := some address }.fill reply
        match m.openStream with
        | .error e => (.error e, filled)
        | .ok () =>
          (.ok (), { filled with
            heartbeat := some reply.heartbeat_stream_id
            timeLastConnect := m.frame.timeStamp }.returned m.frame s.toTables)

def connect : Proxied Unit := act connectAt

/-- mirrors catkit_core/ServiceProxy.cpp:161-166 -/
def getState : Proxied ServiceState := read fun m => m.frame.state

/-- mirrors catkit_core/ServiceProxy.cpp:168-171 -/
def isRunning : Proxied Bool := do
  let state ← getState
  return state = .RUNNING

/-- `m_Client->` -/
def derefClient : Proxied Unit := do
  let s ← get
  match s.client with
  | some _ => pure ()
  | none => crash

/-- mirrors catkit_core/ServiceProxy.cpp:214-231 -/
def waitRunning : Nat → Proxied Unit
  | 0 => do
    if ← isRunning then return
    else throw "The service has not started within the timeout time."
  | polls + 1 => do
    if ← isRunning then return
    else
      ask Moment.errorCheck
      if (← getState) = .CRASHED then throw "The service crashed during startup."
      else if (← getState) = .FAIL_SAFE then throw "The service went into fail safe during startup."
      else waitRunning polls

/-- `wait` is `timeout_in_sec > 0`.
mirrors catkit_core/ServiceProxy.cpp:178-236 -/
def start (wait : Bool) : Proxied Unit := do
  let m ← read fun m => m
  let closed ← ofExcept (L4.start m.frame.state)
  (if closed then ask Moment.startService else pure ())
  (if wait then waitRunning m.polls else pure ())
  connect

/-- mirrors catkit_core/ServiceProxy.cpp:238-255 -/
def stop : Proxied Unit := do
  if ← isRunning then
    connect
    derefClient
    match ← read Moment.request with
    | .ok _ => return
    | .error _ => throw "Unable to stop service."
  else return

/-- mirrors catkit_core/ServiceProxy.cpp:135-154 -/
def getDataStream (name : StdString) : Proxied StdString := do
  start true
  let s ← get
  match OrdMap.find s.dataStreamIds name with
  | none => throw "This is not a valid data stream name."
  | some id =>
    match OrdMap.find s.dataStreams name with
    | some stream => return stream
    | none =>
      ask Moment.openStream
      modify fun s => { s with dataStreams := OrdMap.assign s.dataStreams name id }
      return id

/-- A request of the client. -/
def makeRequest : Proxied Value := do
  derefClient
  ask Moment.request

/-- mirrors catkit_core/ServiceProxy.cpp:38-85 -/
def getProperty (name : StdString) : Proxied Value := do
  start true
  let s ← get
  if name ∉ s.propertyNames then throw "This is not a valid property name."
  else
    match OrdMap.find s.propertyDataStreamLinks name with
    | none => makeRequest
    | some streamName =>
      let _ ← getDataStream streamName
      match ← read Moment.latest with
      | some value => return value
      | none => makeRequest  -- no frame in the stream

/-- mirrors catkit_core/ServiceProxy.cpp:87-109 -/
def setProperty (name : StdString) : Proxied Value := do
  start true
  let s ← get
  if name ∉ s.propertyNames then throw "This is not a valid property name."
  else makeRequest

/-- mirrors catkit_core/ServiceProxy.cpp:111-133 -/
def executeCommand (name : StdString) : Proxied Value := do
  start true
  let s ← get
  if name ∉ s.commandNames then throw "This is not a valid command name."
  else makeRequest

/-- mirrors catkit_core/ServiceProxy.cpp:335-341 -/
def getPropertyNames : Proxied (List StdString) := do
  start true
  return (← get).propertyNames

/-- mirrors catkit_core/ServiceProxy.cpp:343-349 -/
def getCommandNames : Proxied (List StdString) := do
  start true
  return (← get).commandNames

/-- mirrors catkit_core/ServiceProxy.cpp:351-362 -/
def getDataStreamNames : Proxied (List StdString) := do
  start true
  return OrdMap.keys (← get).dataStreamIds

end ServiceProxy

/-! ## Calls -/

inductive ProxyCall where
  | getProperty (name : StdString)
  | setProperty (name : StdString)
  | executeCommand (name : StdString)
  | getDataStream (name : StdString)
  | start (wait : Bool)
  | stop
  | getPropertyNames
  | getCommandNames
  | getDataStreamNames
  deriving DecidableEq

namespace ProxyCall

open ServiceProxy

/-- The call; what it returns is left out. -/
def exec : ProxyCall → Proxied Unit
  | .getProperty name => do let _ ← ServiceProxy.getProperty name
  | .setProperty name => do let _ ← ServiceProxy.setProperty name
  | .executeCommand name => do let _ ← ServiceProxy.executeCommand name
  | .getDataStream name => do let _ ← ServiceProxy.getDataStream name
  | .start wait => ServiceProxy.start wait
  | .stop => ServiceProxy.stop
  | .getPropertyNames => do let _ ← ServiceProxy.getPropertyNames
  | .getCommandNames => do let _ ← ServiceProxy.getCommandNames
  | .getDataStreamNames => do let _ ← ServiceProxy.getDataStreamNames

/-- Calls one after the other, exceptions caught, until one crashes; `true` if
none did. -/
def execAll (env : Nat → Moment) : List ProxyCall → ServiceProxy → Nat → Bool × ServiceProxy × Nat
  | [], s, n => (true, s, n)
  | c :: calls, s, n =>
    match c.exec env s n with
    | (.crash, s, n) => (false, s, n)
    | (_, s, n) => execAll env calls s n

/-- From the constructor on, which connects. -/
def run (env : Nat → Moment) (calls : List ProxyCall) : Bool × ServiceProxy × Nat :=
  let (_, s, n) := connect env initial 0
  execAll env calls s n

end ProxyCall

/-! ## What a call may change -/

namespace ServiceProxy

open Script

variable {env : Nat → Moment} {I : ServiceProxy → Nat → Prop}

/-- What an invariant must survive to survive every call: time that passes, a
`Connect`, and a data stream that is opened. -/
structure Kept (env : Nat → Moment) (I : ServiceProxy → Nat → Prop) : Prop where
  next : ∀ s n, I s n → I s (n + 1)
  connect : ∀ s n, I s n → I (connectAt (env n) s).2 (n + 1)
  stream : ∀ s n name id, I s n → I { s with dataStreams := OrdMap.assign s.dataStreams name id } n

theorem Kept.isRunning (h : Kept env I) : Keeps env I isRunning :=
  (Keeps.read h.next _).bind fun _ => .pure _

theorem Kept.waitRunning (h : Kept env I) : ∀ polls, Keeps env I (waitRunning polls)
  | 0 => by
    refine h.isRunning.bind fun running => ?_
    split
    · exact .pure _
    · exact .throw _
  | polls + 1 => by
    refine h.isRunning.bind fun running => ?_
    split
    · exact .pure _
    · refine (Keeps.ask h.next _).bind fun _ => (Keeps.read h.next _).bind fun state => ?_
      split
      · exact .throw _
      · refine (Keeps.read h.next _).bind fun state => ?_
        split
        · exact .throw _
        · exact h.waitRunning polls

theorem Kept.start (h : Kept env I) (wait : Bool) : Keeps env I (start wait) := by
  refine (Keeps.read h.next _).bind fun m => Keeps.bind ?_ fun closed => Keeps.bind ?_ fun _ =>
    Keeps.bind ?_ fun _ => Keeps.act h.connect
  · cases L4.start m.frame.state with
    | ok closed => exact .pure _
    | error e => exact .throw _
  · split
    · exact .ask h.next _
    · exact .pure _
  · split
    · exact h.waitRunning _
    · exact .pure _

theorem Kept.derefClient : Keeps env I derefClient := by
  refine Keeps.get.bind fun s => ?_
  split
  · exact .pure _
  · exact .crash

theorem Kept.makeRequest (h : Kept env I) : Keeps env I makeRequest :=
  Kept.derefClient.bind fun _ => .ask h.next _

theorem Kept.stop (h : Kept env I) : Keeps env I stop := by
  refine h.isRunning.bind fun running => ?_
  split
  · refine (Keeps.act h.connect).bind fun _ => Kept.derefClient.bind fun _ =>
      (Keeps.read h.next _).bind fun r => ?_
    split
    · exact .pure _
    · exact .throw _
  · exact .pure _

theorem Kept.getDataStream (h : Kept env I) (name : StdString) : Keeps env I (getDataStream name) := by
  refine (h.start true).bind fun _ => Keeps.get.bind fun s => ?_
  split
  · exact .throw _
  · rename_i id _
    split
    · exact .pure _
    · exact (Keeps.ask h.next _).bind fun _ =>
        (Keeps.modify fun s n hs => h.stream s n name id hs).bind fun _ => .pure _

theorem Kept.getProperty (h : Kept env I) (name : StdString) : Keeps env I (getProperty name) := by
  refine (h.start true).bind fun _ => Keeps.get.bind fun s => ?_
  split
  · exact .throw _
  · split
    · exact h.makeRequest
    · refine (h.getDataStream _).bind fun _ => (Keeps.read h.next _).bind fun r => ?_
      split
      · exact .pure _
      · exact h.makeRequest

/-- **Every call** keeps it. -/
theorem Kept.exec (h : Kept env I) (c : ProxyCall) : Keeps env I c.exec := by
  cases c with
  | getProperty name => exact (h.getProperty name).bind fun _ => .pure _
  | setProperty name =>
    refine Keeps.bind ((h.start true).bind fun _ => Keeps.get.bind fun s => ?_) fun _ => .pure _
    split
    · exact .throw _
    · exact h.makeRequest
  | executeCommand name =>
    refine Keeps.bind ((h.start true).bind fun _ => Keeps.get.bind fun s => ?_) fun _ => .pure _
    split
    · exact .throw _
    · exact h.makeRequest
  | getDataStream name => exact (h.getDataStream name).bind fun _ => .pure _
  | start wait => exact h.start wait
  | stop => exact h.stop
  | getPropertyNames => exact ((h.start true).bind fun _ => Keeps.get.bind fun _ => .pure _).bind fun _ => .pure _
  | getCommandNames => exact ((h.start true).bind fun _ => Keeps.get.bind fun _ => .pure _).bind fun _ => .pure _
  | getDataStreamNames => exact ((h.start true).bind fun _ => Keeps.get.bind fun _ => .pure _).bind fun _ => .pure _

theorem Kept.execAll (h : Kept env I) : ∀ (calls : List ProxyCall) (s : ServiceProxy) (n : Nat), I s n →
    I (ProxyCall.execAll env calls s n).2.1 (ProxyCall.execAll env calls s n).2.2
  | [], _, _, hs => hs
  | c :: calls, s, n, hs => by
    have hc := h.exec c s n hs
    unfold ProxyCall.execAll
    split
    · rename_i s' n' heq
      rw [heq] at hc
      exact hc
    · rename_i o s' n' _ heq
      rw [heq] at hc
      exact h.execAll calls s' n' hc

/-- So does a whole run. -/
theorem Kept.run (h : Kept env I) (h₀ : I initial 0) (calls : List ProxyCall) :
    I (ProxyCall.run env calls).2.1 (ProxyCall.run env calls).2.2 :=
  h.execAll calls _ _ (Keeps.act h.connect initial 0 h₀)

/-! ## The client -/

/-- Without a client the proxy knows no names. -/
def Emptied (s : ServiceProxy) : Prop :=
  s.client = none → s.propertyNames = [] ∧ s.commandNames = [] ∧ s.dataStreamIds = []

theorem emptied_connectAt (m : Moment) {s : ServiceProxy} (h : s.Emptied) : (connectAt m s).2.Emptied := by
  unfold connectAt
  split
  · exact fun _ => ⟨rfl, rfl, rfl⟩
  · split
    · exact h
    · split
      · exact fun _ => ⟨rfl, rfl, rfl⟩
      · split
        · exact fun hc => by cases hc
        · dsimp only
          split
          · exact fun hc => by cases hc
          · exact fun hc => by cases hc

theorem kept_emptied (env : Nat → Moment) : Kept env fun s _ => s.Emptied where
  next _ _ h := h
  connect _ n h := emptied_connectAt (env n) h
  stream _ _ _ _ h := h

/-- Waiting reads the state, and changes nothing. -/
theorem safe_waitRunning {P : ServiceProxy → Prop} : ∀ polls,
    Safe env (fun s _ => P s) (waitRunning polls) fun _ s _ => P s
  | 0 => by
    refine Safe.bind (R := fun _ s _ => P s) ?_ fun running => ?_
    · exact Safe.bind (Safe.read fun s n hs => hs) fun state => .pure fun s n hs => hs
    · split
      · exact .pure fun s n hs => hs
      · exact .throw _
  | polls + 1 => by
    refine Safe.bind (R := fun _ s _ => P s) ?_ fun running => ?_
    · exact Safe.bind (Safe.read fun s n hs => hs) fun state => .pure fun s n hs => hs
    · split
      · exact .pure fun s n hs => hs
      · refine Safe.bind (R := fun _ s _ => P s) (Safe.ask fun s n _ hs _ => hs) fun _ =>
          Safe.bind (R := fun _ s _ => P s) (Safe.read fun s n hs => hs) fun state => ?_
        split
        · exact .throw _
        · refine Safe.bind (R := fun _ s _ => P s) (Safe.read fun s n hs => hs) fun state => ?_
          split
          · exact .throw _
          · exact safe_waitRunning polls

theorem safe_start (wait : Bool) :
    Safe env (fun s _ => s.Emptied) (start wait) fun _ s _ => s.Emptied := by
  refine Safe.bind (R := fun _ s _ => s.Emptied) (Safe.read fun s n hs => hs) fun m =>
    Safe.bind (R := fun _ s _ => s.Emptied) ?_ fun closed =>
    Safe.bind (R := fun _ s _ => s.Emptied) ?_ fun _ =>
    Safe.bind (R := fun _ s _ => s.Emptied) ?_ fun _ => Safe.act fun s n _ hs _ => emptied_connectAt _ hs
  · cases L4.start m.frame.state with
    | ok closed => exact .pure fun s n hs => hs
    | error e => exact .throw _
  · split
    · exact .ask fun s n _ hs _ => hs
    · exact .pure fun s n hs => hs
  · split
    · exact safe_waitRunning _
    · exact .pure fun s n hs => hs

theorem safe_makeRequest : Safe env (fun s _ => s.client ≠ none) makeRequest fun _ _ _ => True := by
  refine Safe.bind (R := fun _ _ _ => True) ?_ fun _ => Safe.ask fun _ _ _ _ _ => trivial
  refine Safe.bind (R := fun s _ _ => s.client ≠ none) (Safe.get fun s n hs => hs) fun s => ?_
  split
  · exact .pure fun _ _ _ => trivial
  · rename_i hnone
    exact fun _ _ hs => absurd hnone hs

/-- A data stream that is known means that there is a client. -/
theorem safe_getDataStream (name : StdString) :
    Safe env (fun s _ => s.Emptied) (getDataStream name) fun _ s _ => s.client ≠ none := by
  refine Safe.bind (safe_start true) fun _ =>
    Safe.bind (R := fun a s _ => a = s ∧ s.Emptied) (Safe.get fun s n hs => ⟨rfl, hs⟩) fun a => ?_
  split
  · exact .throw _
  · rename_i id hid
    have hclient : ∀ s, a = s ∧ s.Emptied → s.client ≠ none := by
      rintro s ⟨rfl, hs⟩ hnone
      rw [(hs hnone).2.2] at hid
      cases hid
    split
    · exact .pure fun s n hs => hclient s hs
    · exact Safe.bind (R := fun _ s _ => s.client ≠ none) (.ask fun s n _ hs _ => hclient s hs) fun _ =>
        Safe.bind (R := fun _ s _ => s.client ≠ none) (.modify fun s n hs => hs) fun _ => .pure fun s n hs => hs

/-- A name that is known means that there is a client, for properties and
commands. -/
theorem safe_named (names : ServiceProxy → List StdString) {x : Proxied Value} (name : StdString)
    (hnames : ∀ s, s.Emptied → s.client = none → names s = []) {msg : String}
    (hx : Safe env (fun s _ => s.client ≠ none ∧ s.Emptied) x fun _ _ _ => True) (a : ServiceProxy) :
    Safe env (fun s _ => a = s ∧ s.Emptied) (if name ∉ names a then throw msg else x) fun _ _ _ => True := by
  split
  · exact .throw _
  · rename_i hin
    refine hx.mono ?_ fun _ _ _ h => h
    rintro s n ⟨rfl, hs⟩
    refine ⟨fun hnone => ?_, hs⟩
    rw [hnames a hs hnone] at hin
    exact hin List.not_mem_nil

theorem safe_getProperty (name : StdString) :
    Safe env (fun s _ => s.Emptied) (getProperty name) fun _ _ _ => True := by
  refine Safe.bind (safe_start true) fun _ =>
    Safe.bind (R := fun a s _ => a = s ∧ s.Emptied) (Safe.get fun s n hs => ⟨rfl, hs⟩) fun a => ?_
  refine safe_named (fun s => s.propertyNames) name (fun s hs hnone => (hs hnone).1) ?_ a
  split
  · exact safe_makeRequest.mono (fun s n h => h.1) fun _ _ _ h => h
  · refine Safe.bind ((safe_getDataStream _).mono (fun s n h => h.2) fun _ _ _ h => h) fun _ =>
      Safe.bind (R := fun _ s _ => s.client ≠ none) (Safe.read fun s n hs => hs) fun r => ?_
    split
    · exact .pure fun _ _ _ => trivial
    · exact safe_makeRequest

/-- Every call but `Stop`. -/
theorem safe_exec {c : ProxyCall} (hc : c ≠ .stop) :
    Safe env (fun s _ => s.Emptied) c.exec fun _ _ _ => True := by
  have hnames : ∀ (f : ServiceProxy → List StdString), Safe env (fun s _ => s.Emptied)
      (do let _ ← (do start true; return f (← get) : Proxied (List StdString)) : Proxied Unit) fun _ _ _ => True := by
    intro f
    refine Safe.bind (R := fun _ _ _ => True) ?_ fun _ => .pure fun _ _ _ => trivial
    exact Safe.bind (safe_start true) fun _ => Safe.bind (R := fun _ _ _ => True) (.get fun _ _ _ => trivial)
      fun _ => .pure fun _ _ _ => trivial
  cases c with
  | getProperty name => exact (safe_getProperty name).bind fun _ => .pure fun _ _ _ => trivial
  | setProperty name =>
    refine Safe.bind (R := fun _ _ _ => True) ?_ fun _ => .pure fun _ _ _ => trivial
    refine Safe.bind (safe_start true) fun _ =>
      Safe.bind (R := fun a s _ => a = s ∧ s.Emptied) (Safe.get fun s n hs => ⟨rfl, hs⟩) fun a => ?_
    exact safe_named (fun s => s.propertyNames) name (fun s hs hnone => (hs hnone).1)
      (safe_makeRequest.mono (fun s n h => h.1) fun _ _ _ h => h) a
  | executeCommand name =>
    refine Safe.bind (R := fun _ _ _ => True) ?_ fun _ => .pure fun _ _ _ => trivial
    refine Safe.bind (safe_start true) fun _ =>
      Safe.bind (R := fun a s _ => a = s ∧ s.Emptied) (Safe.get fun s n hs => ⟨rfl, hs⟩) fun a => ?_
    exact safe_named (fun s => s.commandNames) name (fun s hs hnone => (hs hnone).2.1)
      (safe_makeRequest.mono (fun s n h => h.1) fun _ _ _ h => h) a
  | getDataStream name => exact (safe_getDataStream name).bind fun _ => .pure fun _ _ _ => trivial
  | start wait => exact (safe_start wait).mono (fun _ _ h => h) fun _ _ _ _ => trivial
  | stop => exact absurd rfl hc
  | getPropertyNames => exact hnames fun s => s.propertyNames
  | getCommandNames => exact hnames fun s => s.commandNames
  | getDataStreamNames => exact hnames fun s => OrdMap.keys s.dataStreamIds

/-- `Connect` on this frame returns without a client: the service does not run,
or the frame is the one of the last connection, and that was lost. -/
def Loses (s : ServiceProxy) (frame : StateFrame) : Prop :=
  frame.state ≠ .RUNNING ∨ s.timeLastConnect = frame.timeStamp ∧ s.client = none

theorem loses_iff (m : Moment) (s : ServiceProxy) :
    s.Loses m.frame ↔ (connectAt m s).1 = .ok () ∧ (connectAt m s).2.client = none := by
  unfold connectAt Loses
  by_cases hrun : m.frame.state ≠ .RUNNING
  · rw [if_pos hrun]
    exact ⟨fun _ => ⟨rfl, rfl⟩, fun _ => .inl hrun⟩
  · rw [if_neg hrun]
    by_cases htime : s.timeLastConnect = m.frame.timeStamp
    · rw [if_pos htime]
      exact ⟨fun h => ⟨rfl, (h.resolve_left hrun).2⟩, fun h => .inr ⟨htime, h.2⟩⟩
    · rw [if_neg htime]
      refine ⟨fun h => absurd (h.resolve_left hrun).1 htime, ?_⟩
      rintro ⟨hok, hclient⟩
      cases hi : m.serviceInfo with
      | error e => rw [hi] at hok; cases hok
      | ok address =>
        cases hg : m.getInfo with
        | error e => rw [hi, hg] at hok; cases hok
        | ok reply =>
          cases ho : m.openStream with
          | error e => rw [hi, hg, ho] at hok; cases hok
          | ok u => rw [hi, hg, ho] at hclient; cases hclient

theorem derefClient_none {s : ServiceProxy} (h : s.client = none) (env : Nat → Moment) (n : Nat) :
    derefClient env s n = (.crash, s, n) := by
  unfold derefClient
  show (match s.client with | some _ => pure () | none => crash : Proxied Unit) env s n = _
  rw [h]
  rfl

theorem derefClient_some {s : ServiceProxy} {address : StdString × Nat} (h : s.client = some address)
    (env : Nat → Moment) (n : Nat) : derefClient env s n = (.value (), s, n) := by
  unfold derefClient
  show (match s.client with | some _ => pure () | none => crash : Proxied Unit) env s n = _
  rw [h]
  rfl

/-- `Stop` makes its request through whatever `Connect` left. -/
theorem stop_crash_iff (env : Nat → Moment) (s : ServiceProxy) (n : Nat) :
    (stop env s n).1 = .crash ↔ (env n).frame.state = .RUNNING ∧ s.Loses (env (n + 1)).frame := by
  rw [loses_iff]
  have hread : isRunning env s n = (.value (decide ((env n).frame.state = .RUNNING)), s, n + 1) := rfl
  unfold stop
  rw [bind_apply, hread]
  by_cases hrun : (env n).frame.state = .RUNNING
  · simp only [hrun, decide_true, if_true, true_and]
    rw [bind_apply]
    simp only [connect, act]
    cases hc : connectAt (env (n + 1)) s with
    | mk res s' =>
      cases res with
      | error e => exact ⟨fun h => (by cases h), fun h => by cases h.1⟩
      | ok u =>
        simp only [bind_apply, true_and]
        cases hclient : s'.client with
        | none =>
          rw [derefClient_none hclient]
          exact ⟨fun _ => rfl, fun _ => rfl⟩
        | some address =>
          rw [derefClient_some hclient]
          refine ⟨fun h => ?_, fun h => by cases h⟩
          simp only [Script.read] at h
          cases hreq : (env (n + 1 + 1)).request with
          | ok value => rw [hreq] at h; cases h
          | error e => rw [hreq] at h; cases h
  · simp only [hrun, decide_false, Bool.false_eq_true, if_false, false_and, iff_false]
    exact fun h => by cases h

end ServiceProxy

open ServiceProxy
/-- **No null client** but in `Stop`. After any calls, whatever the state stream
shows: a call goes through a null client exactly when it is `Stop`, its first
look finds the service running, and the frame that `Connect` then reads leaves
it without a client. -/
theorem deref_iff (env : Nat → Moment) (calls : List ProxyCall) (c : ProxyCall) :
    let s := (ProxyCall.run env calls).2.1
    let n := (ProxyCall.run env calls).2.2
    (c.exec env s n).1 ≠ .crash ↔
      ¬ (c = .stop ∧ (env n).frame.state = .RUNNING ∧ s.Loses (env (n + 1)).frame) := by
  intro s n
  have hs : s.Emptied := (kept_emptied env).run (fun _ => ⟨rfl, rfl, rfl⟩) calls
  by_cases hc : c = .stop
  · subst hc
    have hstop := stop_crash_iff env s n
    simp only [true_and, ← hstop]
    rfl
  · exact iff_of_true (safe_exec hc s n hs).1 fun h => hc h.1

/-- The service runs at the first looks, and is closing from then on. -/
def closing (looks : Nat) (k : Nat) : Moment where
  frame := if k < looks then ⟨.RUNNING, 1, 0⟩ else ⟨.CLOSING, 2, 0⟩
  polls := 0
  startService := .ok ()
  errorCheck := .ok ()
  serviceInfo := .ok (ascii "localhost", 5000)
  getInfo := .ok ⟨[], [], [], [], ascii "heartbeat"⟩
  openStream := .ok ()
  latest := none
  request := .ok .noneValue

/-- **The counterexample.** The service begins to close between the two looks
of `Stop`. -/
theorem stop_dereferences_null : ¬ ∀ (env : Nat → Moment) (calls : List ProxyCall) (c : ProxyCall),
    (c.exec env (ProxyCall.run env calls).2.1 (ProxyCall.run env calls).2.2).1 ≠ .crash := by
  intro h
  exact h (closing 2) [] .stop rfl

end Catkit2.L4
