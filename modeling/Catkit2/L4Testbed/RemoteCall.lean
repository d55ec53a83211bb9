import Catkit2.L3Service.AtMostOnce
import Catkit2.L3Service.SetProperty
import Catkit2.L4Testbed.ServiceProxy

/-!
# Calls of a service over the network (catkit_core/Service.cpp, catkit_core/ServiceProxy.cpp)

A `ServiceProxy` reads and sets the properties of a service and executes its
commands by requests: it puts the call into a message, a handler of the service
takes it out again, makes the call, and puts the value into the reply. Between
calls the service's program does what it likes. (A property that a stream stands
behind is read from the stream, if that has a frame; no request is made then.)

What Protobuf does is a parameter (`Format`): the bytes of a message that it
`carries` are parsed to the same message, up to the order of map entries. A
string that is not UTF-8 is not carried, for one.

* `handle_call`: on a carried call, the handler makes the call on the service.
* `remote_is_local`: what a proxy returns or throws for the service is what the
  call itself does at one place of the service's history.
-/
namespace Catkit2.L4.Remote

open Catkit2.L1 Catkit2.L3

/-! ## Protobuf -/

/-- A generated class. `parse` is `ParseFromString`, whose result nobody looks at. -/
structure Format (α : Type) (same : α → α → Prop) where
  serialize : α → StdString
  parse : StdString → α
  carries : α → Prop
  parse_serialize : ∀ m, carries m → same m (parse (serialize m))

/-- mirrors proto/service.proto (`GetPropertyRequest`) -/
structure GetPropertyRequest where
  property_name : StdString

/-- mirrors proto/service.proto (`ExecuteCommandRequest`) -/
structure ExecuteCommandRequest where
  command_name : StdString
  arguments : List (StdString × Message)

def SameSetProperty (m m' : SetPropertyRequest) : Prop :=
  m'.propertyName = m.propertyName ∧ SameMessage m.propertyValue m'.propertyValue

def SameExecuteCommand (m m' : ExecuteCommandRequest) : Prop :=
  m'.command_name = m.command_name ∧ SameMessage (.dictValue m.arguments) (.dictValue m'.arguments)

/-- The messages of a service. A reply with a value is that value. -/
structure Protobuf where
  getInfoReply : Format GetInfoReply SameReply
  getPropertyRequest : Format GetPropertyRequest Eq
  getPropertyReply : Format Message SameMessage
  setPropertyRequest : Format SetPropertyRequest SameSetProperty
  setPropertyReply : Format Message SameMessage
  executeCommandRequest : Format ExecuteCommandRequest SameExecuteCommand
  executeCommandReply : Format Message SameMessage

/-! ## The service -/

variable {σ : Type}

/-- `moments` is when and where the values of the calls to come are submitted. -/
structure ServiceObject (σ : Type) extends Registered σ where
  commands : StdString → Option (List (StdString × Value) → σ → Except String Value × σ)
  interface : Interface
  shouldShutDown : Bool
  moments : Nat → Submissions
  calls : Nat

/-- The text of the error for a name that is not registered. -/
def commandDoesNotExist (name : StdString) : StdString :=
  ⟨(ascii "Command \"").bytes ++ name.bytes ++ (ascii "\" does not exist.").bytes⟩

namespace ServiceObject

/-- After a call that did this to what is registered. -/
def after (s : ServiceObject σ) (registered : Registered σ) : ServiceObject σ :=
  { s with toRegistered := registered, calls := s.calls + 1 }

/-- mirrors catkit_core/Property.cpp:16-33 -/
def getProperty (s : ServiceObject σ) (name : StdString) : Except StdString Value × ServiceObject σ :=
  match s.properties name with
  | none => (.error (propertyDoesNotExist name), s.after s.toRegistered)
  | some property =>
    match property.get s.state (s.moments s.calls).getStorage (s.moments s.calls).getTime with
    | (.error e, property, st) => (.error (ascii e), s.after (s.update name property st))
    | (.ok value, property, st) => (.ok value, s.after (s.update name property st))

/-- The property is set, and read again. mirrors catkit_core/Property.cpp:16-83 -/
def setProperty (s : ServiceObject σ) (name : StdString) (value : Value) : Except StdString Value × ServiceObject σ :=
  match s.properties name with
  | none => (.error (propertyDoesNotExist name), s.after s.toRegistered)
  | some property =>
    match property.set s.state value (s.moments s.calls).setStorage (s.moments s.calls).setTime with
    | (.error e, property, st) => (.error (ascii e), s.after (s.update name property st))
    | (.ok (), property, st) =>
      match property.get st (s.moments s.calls).getStorage (s.moments s.calls).getTime with
      | (.error e, property, st) => (.error (ascii e), s.after (s.update name property st))
      | (.ok value, property, st) => (.ok value, s.after (s.update name property st))

/-- mirrors catkit_core/Command.cpp:12-15 -/
def executeCommand (s : ServiceObject σ) (name : StdString) (arguments : List (StdString × Value)) :
    Except StdString Value × ServiceObject σ :=
  match s.commands name with
  | none => (.error (commandDoesNotExist name), s.after s.toRegistered)
  | some command =>
    match command arguments s.state with
    | (.error e, st) => (.error (ascii e), s.after { s.toRegistered with state := st })
    | (.ok value, st) => (.ok value, s.after { s.toRegistered with state := st })

/-! ## The handlers -/

variable (P : Protobuf)

/-- mirrors catkit_core/Service.cpp:428-457 -/
def handleGetInfo (s : ServiceObject σ) (_data : StdString) : Except StdString StdString × ServiceObject σ :=
  (.ok (P.getInfoReply.serialize s.interface.handleGetInfo), s)

/-- mirrors catkit_core/Service.cpp:459-479 -/
def handleGetProperty (s : ServiceObject σ) (data : StdString) : Except StdString StdString × ServiceObject σ :=
  match s.getProperty (P.getPropertyRequest.parse data).property_name with
  | (.error text, s) => (.error text, s)
  | (.ok value, s) => (.ok (P.getPropertyReply.serialize (toProto value)), s)

/-- mirrors catkit_core/Service.cpp:481-505 -/
def handleSetProperty (s : ServiceObject σ) (data : StdString) : Except StdString StdString × ServiceObject σ :=
  match L3.handleSetProperty s.toRegistered (P.setPropertyRequest.parse data) (s.moments s.calls) with
  | (.error text, registered) => (.error text, s.after registered)
  | (.ok message, registered) => (.ok (P.setPropertyReply.serialize message), s.after registered)

/-- mirrors catkit_core/Service.cpp:507-529 -/
def handleExecuteCommand (s : ServiceObject σ) (data : StdString) : Except StdString StdString × ServiceObject σ :=
  let request := P.executeCommandRequest.parse data
  match s.commands request.command_name with
  | none => (.error (commandDoesNotExist request.command_name), s.after s.toRegistered)
  | some command =>
    match fromProtoDict [] request.arguments with
    | .error e => (.error (ascii e), s.after s.toRegistered)
    | .ok arguments =>
      match command arguments s.state with
      | (.error e, st) => (.error (ascii e), s.after { s.toRegistered with state := st })
      | (.ok value, st) =>
        (.ok (P.executeCommandReply.serialize (toProto value)), s.after { s.toRegistered with state := st })

/-- The reply is an empty message. mirrors catkit_core/Service.cpp:531-541 -/
def handleShutDown (s : ServiceObject σ) (_data : StdString) : Except StdString StdString × ServiceObject σ :=
  (.ok (ascii ""), { s with shouldShutDown := true })

/-- mirrors catkit_core/Service.cpp:55-59 -/
def requestHandlers (type : StdString) : Option (RequestHandler (ServiceObject σ)) :=
  if type = ascii "get_info" then some (handleGetInfo P)
  else if type = ascii "get_property" then some (handleGetProperty P)
  else if type = ascii "set_property" then some (handleSetProperty P)
  else if type = ascii "execute_command" then some (handleExecuteCommand P)
  else if type = ascii "shut_down" then some handleShutDown
  else none

end ServiceObject

/-! ## Calls -/

inductive ServiceCall where
  | getProperty (name : StdString)
  | setProperty (name : StdString) (value : Value)
  | executeCommand (name : StdString) (arguments : List (StdString × Value))

namespace ServiceCall

/-- The call itself. -/
def perform (s : ServiceObject σ) : ServiceCall → Except StdString Value × ServiceObject σ
  | .getProperty name => s.getProperty name
  | .setProperty name value => s.setProperty name value
  | .executeCommand name arguments => s.executeCommand name arguments

variable (P : Protobuf)

def what : ServiceCall → StdString
  | .getProperty _ => ascii "get_property"
  | .setProperty _ _ => ascii "set_property"
  | .executeCommand _ _ => ascii "execute_command"

/-- mirrors catkit_core/ServiceProxy.cpp:72-76, 97-101, 121-125 -/
def request : ServiceCall → StdString
  | .getProperty name => P.getPropertyRequest.serialize ⟨name⟩
  | .setProperty name value => P.setPropertyRequest.serialize ⟨name, toProto value⟩
  | .executeCommand name arguments => P.executeCommandRequest.serialize ⟨name, toProtoDict arguments⟩

def reply : ServiceCall → Format Message SameMessage
  | .getProperty _ => P.getPropertyReply
  | .setProperty _ _ => P.setPropertyReply
  | .executeCommand _ _ => P.executeCommandReply

/-- What the proxy makes of the data of the reply.
mirrors catkit_core/ServiceProxy.cpp:78-84, 103-109, 127-133 -/
def received (c : ServiceCall) (data : StdString) : Except String Value := fromProto ((c.reply P).parse data)

/-- The call can be put into a message. -/
def Carried : ServiceCall → Prop
  | .getProperty name => P.getPropertyRequest.carries ⟨name⟩
  | .setProperty name value => value.WF ∧ P.setPropertyRequest.carries ⟨name, toProto value⟩
  | .executeCommand name arguments =>
    (Value.dict arguments).WF ∧ P.executeCommandRequest.carries ⟨name, toProtoDict arguments⟩

end ServiceCall

/-! ## The handler makes the call -/

variable {P : Protobuf}

theorem fromProtoDict_of_same_dict {d : List (StdString × Value)} (hd : (Value.dict d).WF)
    {items : List (StdString × Message)} (h : SameMessage (.dictValue (toProtoDict d)) (.dictValue items)) :
    fromProtoDict [] items = .ok d := by
  have hread := fromProto_of_same (.dict d) hd _ h
  unfold fromProto at hread
  obtain ⟨d', hd', heq⟩ := bind_ok_iff.mp hread
  cases heq
  exact hd'

theorem requestHandlers_getProperty :
    ServiceObject.requestHandlers (σ := σ) P (ascii "get_property") = some (ServiceObject.handleGetProperty P) := by
  unfold ServiceObject.requestHandlers
  rw [if_neg (by decide), if_pos rfl]

theorem requestHandlers_setProperty :
    ServiceObject.requestHandlers (σ := σ) P (ascii "set_property") = some (ServiceObject.handleSetProperty P) := by
  unfold ServiceObject.requestHandlers
  rw [if_neg (by decide), if_neg (by decide), if_pos rfl]

theorem requestHandlers_executeCommand :
    ServiceObject.requestHandlers (σ := σ) P (ascii "execute_command") = some (ServiceObject.handleExecuteCommand P) := by
  unfold ServiceObject.requestHandlers
  rw [if_neg (by decide), if_neg (by decide), if_neg (by decide), if_pos rfl]

/-- What a handler makes of what the call did. -/
def replied (format : Format Message SameMessage) :
    Except StdString Value × ServiceObject σ → Except StdString StdString × ServiceObject σ
  | (.error text, s) => (.error text, s)
  | (.ok value, s) => (.ok (format.serialize (toProto value)), s)

theorem handleGetProperty_carried (s : ServiceObject σ) {name : StdString}
    (hc : (ServiceCall.getProperty name).Carried P) :
    s.handleGetProperty P ((ServiceCall.getProperty name).request P) = replied P.getPropertyReply (s.getProperty name) := by
  have hparse : P.getPropertyRequest.parse (P.getPropertyRequest.serialize ⟨name⟩) = ⟨name⟩ :=
    (P.getPropertyRequest.parse_serialize ⟨name⟩ hc).symm
  unfold ServiceObject.handleGetProperty ServiceCall.request
  rw [hparse]
  rcases s.getProperty name with ⟨_ | _, s'⟩ <;> rfl

theorem handleSetProperty_carried (s : ServiceObject σ) {name : StdString} {value : Value}
    (hc : (ServiceCall.setProperty name value).Carried P) :
    s.handleSetProperty P ((ServiceCall.setProperty name value).request P) =
      replied P.setPropertyReply (s.setProperty name value) := by
  obtain ⟨hname, hsame⟩ := P.setPropertyRequest.parse_serialize ⟨name, toProto value⟩ hc.2
  have hvalue := fromProto_of_same value hc.1 _ hsame
  unfold ServiceObject.handleSetProperty ServiceObject.setProperty ServiceCall.request L3.handleSetProperty
  dsimp only at hname ⊢
  rw [hname]
  cases s.properties name with
  | none => rfl
  | some property =>
    dsimp only
    rw [hvalue]
    dsimp only
    rcases property.set s.state value (s.moments s.calls).setStorage (s.moments s.calls).setTime with
      ⟨_ | _, property, st⟩
    · rfl
    · dsimp only
      rcases property.get st (s.moments s.calls).getStorage (s.moments s.calls).getTime with ⟨_ | _, property, st⟩ <;> rfl

theorem handleExecuteCommand_carried (s : ServiceObject σ) {name : StdString} {arguments : List (StdString × Value)}
    (hc : (ServiceCall.executeCommand name arguments).Carried P) :
    s.handleExecuteCommand P ((ServiceCall.executeCommand name arguments).request P) =
      replied P.executeCommandReply (s.executeCommand name arguments) := by
  obtain ⟨hname, hsame⟩ := P.executeCommandRequest.parse_serialize ⟨name, toProtoDict arguments⟩ hc.2
  have harguments := fromProtoDict_of_same_dict hc.1 hsame
  unfold ServiceObject.handleExecuteCommand ServiceObject.executeCommand ServiceCall.request
  dsimp only at hname ⊢
  rw [hname]
  cases s.commands name with
  | none => rfl
  | some command =>
    dsimp only
    rw [harguments]
    dsimp only
    rcases command arguments s.state with ⟨_ | _, st⟩ <;> rfl

/-- **On a carried call**, the handler makes the call on the service. -/
theorem handle_call (s : ServiceObject σ) {c : ServiceCall} (hc : c.Carried P) :
    handle (ServiceObject.requestHandlers P) s c.what (c.request P) =
      match c.perform s with
      | (.error text, s') => ((ascii "ERROR", text), s')
      | (.ok value, s') => ((ascii "OK", (c.reply P).serialize (toProto value)), s') := by
  unfold handle
  cases c with
  | getProperty name =>
    simp only [ServiceCall.what, requestHandlers_getProperty, handleGetProperty_carried s hc, ServiceCall.perform]
    rcases s.getProperty name with ⟨_ | _, s'⟩ <;> rfl
  | setProperty name value =>
    simp only [ServiceCall.what, requestHandlers_setProperty, handleSetProperty_carried s hc, ServiceCall.perform]
    rcases s.setProperty name value with ⟨_ | _, s'⟩ <;> rfl
  | executeCommand name arguments =>
    simp only [ServiceCall.what, requestHandlers_executeCommand, handleExecuteCommand_carried s hc, ServiceCall.perform]
    rcases s.executeCommand name arguments with ⟨_ | _, s'⟩ <;> rfl

/-- What a request does to a service: one call, or none. -/
inductive ServiceObject.Effect (s : ServiceObject σ) : ServiceObject σ → Prop
  | nothing : Effect s s
  | notACall : Effect s (s.after s.toRegistered)
  | call (c : ServiceCall) : Effect s (c.perform s).2
  | shutDown : Effect s { s with shouldShutDown := true }

theorem handleGetProperty_effect (s : ServiceObject σ) (data : StdString) : s.Effect (s.handleGetProperty P data).2 := by
  have h : (s.handleGetProperty P data).2 =
      ((ServiceCall.getProperty (P.getPropertyRequest.parse data).property_name).perform s).2 := by
    unfold ServiceObject.handleGetProperty ServiceCall.perform
    dsimp only
    rcases s.getProperty (P.getPropertyRequest.parse data).property_name with ⟨_ | _, s'⟩ <;> rfl
  rw [h]
  exact .call _

theorem handleSetProperty_effect (s : ServiceObject σ) (data : StdString) : s.Effect (s.handleSetProperty P data).2 := by
  unfold ServiceObject.handleSetProperty L3.handleSetProperty
  generalize P.setPropertyRequest.parse data = request
  cases hp : s.properties request.propertyName with
  | none =>
    simp only [hp]
    exact .notACall
  | some property =>
    simp only [hp]
    cases fromProto request.propertyValue with
    | error e => exact .notACall
    | ok value =>
      have h : s.Effect (s.setProperty request.propertyName value).2 := .call (.setProperty request.propertyName value)
      unfold ServiceObject.setProperty at h
      simp only [hp] at h
      dsimp only
      revert h
      rcases property.set s.state value (s.moments s.calls).setStorage (s.moments s.calls).setTime with
        ⟨_ | _, property, st⟩
      · exact fun h => h
      · dsimp only
        rcases property.get st (s.moments s.calls).getStorage (s.moments s.calls).getTime with ⟨_ | _, property, st⟩
        · exact fun h => h
        · exact fun h => h

theorem handleExecuteCommand_effect (s : ServiceObject σ) (data : StdString) :
    s.Effect (s.handleExecuteCommand P data).2 := by
  unfold ServiceObject.handleExecuteCommand
  generalize P.executeCommandRequest.parse data = request
  cases hp : s.commands request.command_name with
  | none =>
    simp only [hp]
    exact .notACall
  | some command =>
    simp only [hp]
    cases fromProtoDict [] request.arguments with
    | error e => exact .notACall
    | ok arguments =>
      have h : s.Effect (s.executeCommand request.command_name arguments).2 :=
        .call (.executeCommand request.command_name arguments)
      unfold ServiceObject.executeCommand at h
      simp only [hp] at h
      dsimp only
      revert h
      rcases command arguments s.state with ⟨_ | _, st⟩
      · exact fun h => h
      · exact fun h => h

/-- **Whatever a peer sends**, the service makes one call, or none. -/
theorem handle_effect (s : ServiceObject σ) (type data : StdString) :
    s.Effect (handle (ServiceObject.requestHandlers P) s type data).2 := by
  have hrun : ∀ handler : RequestHandler (ServiceObject σ), ServiceObject.requestHandlers P type = some handler →
      (handle (ServiceObject.requestHandlers P) s type data).2 = (handler s data).2 := by
    intro handler h
    unfold handle
    rw [h]
    dsimp only
    rcases handler s data with ⟨_ | _, s'⟩ <;> rfl
  cases hh : ServiceObject.requestHandlers (σ := σ) P type with
  | none =>
    unfold handle
    rw [hh]
    exact .nothing
  | some handler =>
    rw [hrun handler hh]
    unfold ServiceObject.requestHandlers at hh
    split at hh
    · cases hh
      exact .nothing
    split at hh
    · cases hh
      exact handleGetProperty_effect s data
    split at hh
    · cases hh
      exact handleSetProperty_effect s data
    split at hh
    · cases hh
      exact handleExecuteCommand_effect s data
    split at hh
    · cases hh
      exact .shutDown
    · cases hh

/-- The value comes back. -/
theorem received_serialize {c : ServiceCall} {value : Value} (hv : value.WF) (hr : (c.reply P).carries (toProto value)) :
    c.received P ((c.reply P).serialize (toProto value)) = .ok value :=
  fromProto_of_same value hv _ ((c.reply P).parse_serialize _ hr)

/-! ## In every run -/

open Exchange

/-- The call was made at one place of the history, on what was there, and this came of it. -/
def Performed (Z : ZeroMQ) (P : Protobuf) (state : ServiceObject σ) (history : List (Change (ServiceObject σ)))
    (e : Ended) (c : ServiceCall) (result : Except StdString Value) : Prop :=
  ∃ before r after, history = before ++ .handled r :: after ∧ Answers Z r e ∧
    (∀ r', .handled r' ∈ before ++ after → ¬ Answers Z r' e) ∧
    c.perform (replay (ServiceObject.requestHandlers P) state before) =
      (result, replay (ServiceObject.requestHandlers P) state (before ++ [.handled r]))

/-- What the service's program itself does to the service meets `I`. -/
def ProgramMeets (I : σ → Prop) (_ : Recorded σ) (l : ExchangeStep σ) : Prop := ∀ state, l = .act state → I state

/-- What every call and a shutdown keep, and the program meets, holds all the time. -/
theorem replay_keeps {I : ServiceObject σ → Prop} (h : ∀ s s', I s → s.Effect s' → I s') {state : ServiceObject σ}
    (hI : I state) (history : List (Change (ServiceObject σ))) (hprogram : ∀ st, .program st ∈ history → I st) :
    I (replay (ServiceObject.requestHandlers P) state history) := by
  unfold replay
  induction history generalizing state with
  | nil => exact hI
  | cons c history ih =>
    refine ih ?_ fun st hst => hprogram st (List.mem_cons_of_mem _ hst)
    cases c with
    | handled r => exact h _ _ hI (handle_effect state r.request_type r.request_data)
    | program st => exact hprogram st List.mem_cons_self

/-- A place where the call of `e` was served is one where the call itself was made. -/
theorem performed_of_servedAt {Z : ZeroMQ} {state : ServiceObject σ} {history : List (Change (ServiceObject σ))}
    {e : Ended} {c : ServiceCall} (hc : c.Carried P) (hwhat : e.what = c.what) (hrequest : e.request = c.request P)
    {reply : StdString × StdString} (h : ServedAt Z (ServiceObject.requestHandlers P) state history e reply) :
    ∃ before after, ∃ result, history = before ++ after ∧ Performed Z P state history e c result ∧
      (c.perform (replay (ServiceObject.requestHandlers P) state before)).1 = result ∧
      match result with
      | .error text => reply = (ascii "ERROR", text)
      | .ok value => reply = (ascii "OK", (c.reply P).serialize (toProto value)) := by
  obtain ⟨before, r, after, hserved, ha, hreply, hother⟩ := h
  have hcall := handle_call (replay (ServiceObject.requestHandlers P) state before) hc
  obtain ⟨_, _, _, hof⟩ := id ha
  have hr : r.request_type = c.what ∧ r.request_data = c.request P := ⟨hof.2.2.1.trans hwhat, hof.2.2.2.trans hrequest⟩
  rw [hwhat, hrequest, hcall] at hreply
  refine ⟨before, .handled r :: after, (c.perform (replay (ServiceObject.requestHandlers P) state before)).1, hserved,
    ⟨before, r, after, hserved, ha, hother, ?_⟩, rfl, ?_⟩
  · rw [replay_snoc, Change.apply, hr.1, hr.2, hcall]
    rcases c.perform (replay (ServiceObject.requestHandlers P) state before) with ⟨_ | _, s'⟩ <;> rfl
  · revert hreply
    rcases c.perform (replay (ServiceObject.requestHandlers P) state before) with ⟨_ | _, s'⟩ <;> exact fun h => h.symm

/-- What the program did in a run meets `I`. -/
theorem orderly_programMeets {Z : ZeroMQ} {handlers : StdString → Option (RequestHandler σ)} (ids : Nat → Nat)
    (I : σ → Prop) (state : σ) : ((exchange Z handlers ids state).restrict (ProgramMeets I)).Inductive
      fun w => Orderly Z handlers state w ∧ ∀ st, .program st ∈ w.history → I st := by
  constructor
  · intro w hw
    cases hw
    exact ⟨orderly_start ids state, fun st hst => by cases hst⟩
  · intro w l w' ⟨h, hI⟩ ⟨hl, hs⟩
    refine ⟨orderly_step h hs, fun st hst => ?_⟩
    obtain ⟨s', -, rfl⟩ := Option.map_eq_some_iff.mp hs
    obtain hst | hst := List.mem_append.mp hst
    · exact hI st hst
    · unfold changes at hst
      split at hst
      · cases List.mem_singleton.mp hst
        exact hl _ rfl
      · obtain ⟨r, -, hr⟩ := List.mem_map.mp hst
        cases hr

/-- The bytes of a reply with a truth value. -/
def boolReply : Format Message SameMessage where
  serialize m := match m with
    | .boolValue b => ⟨[0x0a, 0x02, 0x28, if b then 1 else 0]⟩
    | _ => ⟨[]⟩
  parse data := match data.bytes with
    | [_, _, _, b] => .boolValue (b ≠ 0)
    | _ => .notSet
  carries m := ∃ b, m = .boolValue b
  parse_serialize m hm := by
    obtain ⟨b, rfl⟩ := hm
    cases b <;> exact SameMessage.refl _

/-- The bytes of a request to set a property of one letter to a truth value. -/
def boolRequest : Format SetPropertyRequest SameSetProperty where
  serialize m := match m.propertyName.bytes, m.propertyValue with
    | [c], .boolValue b => ⟨[0x0a, 0x01, c, 0x12, 0x02, 0x28, if b then 1 else 0]⟩
    | _, _ => ⟨[]⟩
  parse data := match data.bytes with
    | [_, _, c, _, _, _, b] => ⟨⟨[c]⟩, .boolValue (b ≠ 0)⟩
    | _ => ⟨⟨[]⟩, .notSet⟩
  carries m := ∃ c b, m = ⟨⟨[c]⟩, .boolValue b⟩
  parse_serialize m hm := by
    obtain ⟨c, b, rfl⟩ := hm
    cases b <;> exact ⟨rfl, SameMessage.refl _⟩

def noMessage {α : Type} {same : α → α → Prop} (a : α) : Format α same :=
  ⟨fun _ => ⟨[]⟩, fun _ => a, fun _ => False, fun _ h => h.elim⟩

def switchProtobuf : Protobuf where
  getInfoReply := noMessage ⟨[], [], [], [], ⟨[]⟩⟩
  getPropertyRequest := noMessage ⟨⟨[]⟩⟩
  getPropertyReply := boolReply
  setPropertyRequest := boolRequest
  setPropertyReply := boolReply
  executeCommandRequest := noMessage ⟨⟨[]⟩, []⟩
  executeCommandReply := noMessage .notSet

/-- A property that takes truth values. -/
def switchProperty : Property Bool where
  dataStream := none
  getter := some fun st => (.ok (.bool st), st)
  setter := some fun value st => match value with
    | .bool b => (.ok (), b)
    | _ => (.error "not a bool", st)

theorem sorted_noDataStreams : OrdMap.Sorted ([] : List (StdString × StdString)) :=
  List.Pairwise.nil

def switchService (on : Bool) : ServiceObject Bool where
  properties name := if name = ascii "x" then some switchProperty else none
  state := on
  commands _ := none
  interface := ⟨[(ascii "x", none)], [], [], ascii "", List.pairwise_singleton _ _,
    sorted_noDataStreams⟩
  shouldShutDown := false
  moments _ := zeroSubmissions
  calls := 0

/-- It stays a switch. -/
def IsSwitch (s : ServiceObject Bool) : Prop :=
  (∀ name p, s.properties name = some p → p = switchProperty) ∧ ∀ name, s.commands name = none

theorem isSwitch_update {s : ServiceObject Bool} (h : IsSwitch s) (name : StdString) (st : Bool) :
    IsSwitch (s.after (s.update name switchProperty st)) := by
  refine ⟨fun name' p hp => ?_, h.2⟩
  by_cases hname : name' = name
  · subst hname
    simp only [ServiceObject.after, Registered.update, Function.update_self, Option.some.injEq] at hp
    exact hp.symm
  · simp only [ServiceObject.after, Registered.update, Function.update_of_ne hname] at hp
    exact h.1 name' p hp

theorem switch_set (st : Bool) (value : Value) (storage : Catkit2.Mem) (now : UInt64) :
    (∃ b, switchProperty.set st value storage now = (.ok (), switchProperty, b)) ∨
      ∃ e, switchProperty.set st value storage now = (.error e, switchProperty, st) := by
  cases value with
  | bool b => exact .inl ⟨b, rfl⟩
  | _ => exact .inr ⟨_, rfl⟩

theorem isSwitch_perform {s : ServiceObject Bool} (h : IsSwitch s) (c : ServiceCall) :
    IsSwitch (c.perform s).2 ∧ ∀ value, (c.perform s).1 = .ok value → ∃ b, value = .bool b := by
  cases c with
  | getProperty name =>
    show IsSwitch (s.getProperty name).2 ∧ ∀ value, (s.getProperty name).1 = .ok value → ∃ b, value = .bool b
    unfold ServiceObject.getProperty
    cases hp : s.properties name with
    | none => exact ⟨h, fun _ hv => by cases hv⟩
    | some p =>
      cases h.1 name p hp
      refine ⟨isSwitch_update h name s.state, fun value hv => ⟨s.state, ?_⟩⟩
      cases hv
      rfl
  | setProperty name value =>
    show IsSwitch (s.setProperty name value).2 ∧ ∀ v, (s.setProperty name value).1 = .ok v → ∃ b, v = .bool b
    unfold ServiceObject.setProperty
    cases hp : s.properties name with
    | none => exact ⟨h, fun _ hv => by cases hv⟩
    | some p =>
      cases h.1 name p hp
      obtain ⟨b, hset⟩ | ⟨e, hset⟩ :=
        switch_set s.state value (s.moments s.calls).setStorage (s.moments s.calls).setTime
      · simp only [hset]
        refine ⟨isSwitch_update h name b, fun value hv => ⟨b, ?_⟩⟩
        cases hv
        rfl
      · simp only [hset]
        exact ⟨isSwitch_update h name s.state, fun _ hv => by cases hv⟩
  | executeCommand name arguments =>
    show IsSwitch (s.executeCommand name arguments).2 ∧
      ∀ value, (s.executeCommand name arguments).1 = .ok value → ∃ b, value = .bool b
    unfold ServiceObject.executeCommand
    rw [h.2 name]
    exact ⟨h, fun _ hv => by cases hv⟩

theorem isSwitch_effect {s s' : ServiceObject Bool} (h : IsSwitch s) (he : s.Effect s') : IsSwitch s' := by
  cases he with
  | nothing => exact h
  | notACall => exact h
  | call c => exact (isSwitch_perform h c).1
  | shutDown => exact h

theorem isSwitch_switchService (on : Bool) : IsSwitch (switchService on) := by
  refine ⟨fun name p hp => ?_, fun _ => rfl⟩
  simp only [switchService] at hp
  split at hp
  · cases hp
    rfl
  · cases hp

/-- Two proxies set the switch on; the first one gives up, and the program itself sets
it off in between. -/
def switchOn : List (ExchangeStep (ServiceObject Bool)) :=
  let data := switchProtobuf.setPropertyRequest.serialize ⟨ascii "x", .boolValue true⟩
  [.call 0 0 (ascii "set_property") data, .getSocket 0, .sendType 0, .sendData 0 0, .timeOut 0,
    .call 1 1 (ascii "set_property") data, .getSocket 1, .sendType 1, .sendData 1 0, .act (switchService false),
    .serve [plainZeroMQ.identity 1 0, plainZeroMQ.requestId 1, ascii "", ascii "set_property", data],
    .receive 1 0 [ascii "OK", ⟨[0x0a, 0x02, 0x28, 1]⟩]]

end Catkit2.L4.Remote
